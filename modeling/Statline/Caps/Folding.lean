import Statline.Contribution
import Statline.Ranking
import Statline.Table

namespace Statline

/-- The first contribution sets the range to its value whatever its mode; the others act on it. -/
def CapContribution.fold : List CapContribution → Option Caps
  | [] => none
  | first :: rest =>
    some (rest.foldl (fun range cap => range.apply cap.mode cap.value) (Caps.fixed first.value))

/-- The range of each dimension that has a cap in the layer. -/
def Layer.caps (layer : Layer) (contributions : List CapContribution) : Table Caps :=
  let inLayer := contributions.filter (·.scope = layer)
  let group (dimension : String) :=
    ranked CapContribution.priority (inLayer.filter (·.dimension = dimension))
  (Table.tabulate (inLayer.map (·.dimension)) group).filterMap fun _ caps =>
    (CapContribution.fold caps).map Caps.normalized

namespace LayerPolicy

def join (policy : LayerPolicy) (a b : Caps) : Caps :=
  match policy with
  | intersect => a.intersect b
  | union => a.union b

def absorb (policy : LayerPolicy) (result : Table Caps) (dimension : String) (range : Caps) :
    Table Caps :=
  result.insert dimension <|
    match result.get? dimension with
    | some running => policy.join running range
    | none => range

/-- Joins the ranges of all layers that cap a dimension, in the order of the layers. -/
def combine (policy : LayerPolicy) (layers : List (Table Caps)) : Table Caps :=
  let joined := layers.foldl
    (fun result caps => caps.entries.foldl (fun r entry => policy.absorb r entry.1 entry.2) result)
    Table.empty
  joined.map Caps.normalized

end LayerPolicy

end Statline
