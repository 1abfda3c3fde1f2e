import Statline.Document.Text

namespace Statline.Document

/-- What was found in a document: its value, written again in full, and whether it is valid where
its kind has a notion of that. -/
structure Inspection where
  value : Json
  valid : Option (Except Fault Unit)

def inspectPlain (α : Type) [Document α] (text : String) : Except Fault Inspection := do
  return ⟨write (← load α text), none⟩

def inspectWith {α : Type} [Document α] (validate : α → Except Fault Unit) (text : String) :
    Except Fault Inspection := do
  let value ← load α text
  return ⟨write value, some (validate value)⟩

/-- How a document of each kind is inspected. A rule is valid or not for a dimension. -/
def inspectors (dimension : String) : List (String × (String → Except Fault Inspection)) :=
  [("bucket", inspectPlain Bucket), ("operator", inspectPlain Operator),
    ("cap_mode", inspectPlain CapMode), ("layer", inspectPlain Layer),
    ("policy", inspectPlain LayerPolicy), ("eviction_policy", inspectPlain EvictionPolicy),
    ("caps", inspectPlain Caps), ("actor", inspectPlain Actor),
    ("snapshot", inspectPlain Snapshot), ("primary_stats", inspectPlain PrimaryStats),
    ("derived_stats", inspectPlain DerivedStats),
    ("contribution", inspectWith Contribution.validate),
    ("cap_contribution", inspectWith CapContribution.validate),
    ("output", inspectWith Output.validate), ("rule", inspectWith (Rule.validate · dimension)),
    ("combiner", inspectWith RuleBook.validate), ("layers", inspectWith LayerPlan.validate),
    ("formula", inspectWith Formula.validate),
    ("cache_config", inspectWith CacheSettings.validate),
    ("aggregator_config", inspectWith AggregatorSettings.validate),
    ("engine", inspectWith EngineSettings.validate)]

def inspect (kind dimension text : String) : Except Fault Inspection :=
  match (inspectors dimension).find? (·.1 = kind) with
  | some (_, inspector) => inspector text
  | none => .error (.unknownName "kind of document" kind)

end Statline.Document
