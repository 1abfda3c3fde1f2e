import Statline.Caps.Effective
import Statline.Rule
import Statline.Snapshot

namespace Statline.Snapshot

/-- The value of a combination: kept in its range, and dropped if it has none and is not finite. -/
def bounded (range : Option Caps) (raw : Float) : Option Float :=
  match range with
  | some caps => some (caps.clamp raw)
  | none => if raw.isFinite then some raw else none

/-- An effective cap bounds a dimension before the clamp of its rule does. -/
def rangeFor (rules : RuleBook) (effective : Table Caps) (dimension : String) : Option Caps :=
  (effective.get? dimension).or ((rules.rule? dimension).map (·.clampDefault))

/-- The values of the dimensions that the contributions name. -/
def values (rules : RuleBook) (effective : Table Caps) (contributions : List Contribution) :
    Table Float :=
  let raw (dimension : String) :=
    rules.combine dimension (contributions.filter (·.dimension = dimension))
  (Table.tabulate (contributions.map (·.dimension)) raw).filterMap fun dimension value =>
    bounded (rangeFor rules effective dimension) value

/-- The effective caps, and the clamps of the rules that bounded a contributed dimension. -/
def usedCaps (rules : RuleBook) (effective : Table Caps) (contributions : List Contribution) :
    Table Caps :=
  contributions.foldl
    (fun used contribution =>
      match effective.get? contribution.dimension, rules.rule? contribution.dimension with
      | none, some rule => used.insert contribution.dimension rule.clampDefault
      | _, _ => used)
    effective

/-- The snapshot of an actor for which the outputs were gathered in this order. -/
def compute (rules : RuleBook) (layers : LayerPlan) (outputs : List Output) (actor : Actor) :
    Snapshot :=
  let effective := layers.effectiveCaps outputs
  let primary := outputs.flatMap (·.primary)
  let derived := outputs.flatMap (·.derived)
  { actorId := actor.id
    primary := values rules effective primary
    derived := values rules effective derived
    capsUsed := usedCaps rules effective (primary ++ derived)
    version := actor.version }

end Statline.Snapshot
