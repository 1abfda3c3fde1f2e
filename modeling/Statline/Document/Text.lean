import Statline.Document.Settings
import Statline.Document.Stats
import Statline.Json.Printer
import Statline.Json.Reader

namespace Statline

/-- A type whose values are kept in documents. -/
class Document (α : Type) where
  read : Json → Option α
  write : α → Json

namespace Document

instance : Document Bucket := ⟨readMember Bucket, writeMember⟩
instance : Document Operator := ⟨readMember Operator, writeMember⟩
instance : Document CapMode := ⟨readMember CapMode, writeMember⟩
instance : Document Layer := ⟨readMember Layer, writeMember⟩
instance : Document LayerPolicy := ⟨readMember LayerPolicy, writeMember⟩
instance : Document EvictionPolicy := ⟨readMember EvictionPolicy, writeMember⟩
instance : Document Caps := ⟨readCaps, writeCaps⟩
instance : Document Actor := ⟨readActor, writeActor⟩
instance : Document Snapshot := ⟨readSnapshot, writeSnapshot⟩
instance : Document DerivedStats := ⟨readDerivedStats, writeDerivedStats⟩
instance : Document Contribution := ⟨readContribution, writeContribution⟩
instance : Document CapContribution := ⟨readCapContribution, writeCapContribution⟩
instance : Document Output := ⟨readOutput, writeOutput⟩
instance : Document Rule := ⟨readRule, writeRule⟩
instance : Document RuleBook := ⟨readRuleBook, writeRuleBook⟩
instance : Document LayerPlan := ⟨readLayerPlan, writeLayerPlan⟩
instance : Document Formula := ⟨readFormula, writeFormula⟩
instance : Document CacheSettings := ⟨readCacheSettings, writeCacheSettings⟩
instance : Document AggregatorSettings := ⟨readAggregatorSettings, writeAggregatorSettings⟩
instance : Document EngineSettings := ⟨readEngineSettings, writeEngineSettings⟩
instance : Document PrimaryStats := ⟨readPrimaryStats, writePrimaryStats⟩
instance : Document Context := ⟨readContext, writeContext⟩

/-- Reads a text as one value of the expected shape. -/
def load (α : Type) [Document α] (text : String) : Except Fault α :=
  match (Json.parse? text).bind read with
  | some value => .ok value
  | none => .error .unreadableDocument

def toText {α : Type} [Document α] (value : α) : String :=
  (write value).prettyText

end Document

/-- Adds the rules of a document, all of them or none, and counts them. -/
def RuleBook.loadCounted (book : RuleBook) (text : String) : Except Fault (Nat × RuleBook) := do
  book.applyCounted (← Document.load RuleBook text)

def RuleBook.load (book : RuleBook) (text : String) : Except Fault RuleBook :=
  (book.loadCounted text).map Prod.snd

def LayerPlan.load (plan : LayerPlan) (text : String) : Except Fault LayerPlan := do
  plan.apply (← Document.load LayerPlan text)

def CapStatistics.toText (statistics : CapStatistics) : String :=
  Json.compactText (.obj [
    ("per_layer", .obj (statistics.perLayer.map fun entry =>
      (entry.1.name, Document.writeNat entry.2))),
    ("total_dimensions", Document.writeNat statistics.totalDimensions),
    ("policy", Document.writeMember statistics.policy)])

namespace EngineSettings

def ofText (text : String) : Except Fault EngineSettings := do
  let settings ← Document.load EngineSettings text
  settings.validate
  return settings

/-- Reads the settings that a file holds. Messages about them name the file. -/
def ofFile (path : String) (content : Option String) : Except Fault EngineSettings :=
  match content with
  | none => .error (.unreadableFile ("failed to read config file '" ++ path ++ "'"))
  | some text =>
    match ofText text with
    | .error (.invalidSetting reason) =>
      .error (.invalidSetting ("failed to parse config file '" ++ path ++ "': " ++ reason))
    | result => result

end EngineSettings

end Statline
