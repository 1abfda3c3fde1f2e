import Statline.Caps.Folding
import Statline.LayerPlan

namespace Statline

/-- How many dimensions each layer of a plan caps, and how many are capped in all. -/
structure CapStatistics where
  /-- In the standard order of the layers. -/
  perLayer : List (Layer × Nat)
  totalDimensions : Nat
  policy : LayerPolicy
deriving DecidableEq

def capsOf (outputs : List Output) : List CapContribution :=
  outputs.flatMap (·.caps)

def validateCaps (caps : Table Caps) : Except Fault Unit :=
  caps.entries.forM fun (dimension, range) => do
    if Text.isBlank dimension then throw .emptyDimension
    let _ ← Caps.checked dimension range.min range.max

namespace LayerPlan

def capsWithin (plan : LayerPlan) (outputs : List Output) (layer : Layer) :
    Except Fault (Table Caps) :=
  if plan.contains layer then .ok (layer.caps (capsOf outputs))
  else .error (.layerNotInOrder layer)

/-- The caps of each layer of the plan, in its order. -/
def layerCaps (plan : LayerPlan) (outputs : List Output) : List (Table Caps) :=
  plan.order.map fun layer => layer.caps (capsOf outputs)

def effectiveCaps (plan : LayerPlan) (outputs : List Output) : Table Caps :=
  plan.policy.combine (plan.layerCaps outputs)

def statistics (plan : LayerPlan) (outputs : List Output) : CapStatistics where
  perLayer := (Layer.all.filter plan.contains).map fun layer =>
    (layer, (layer.caps (capsOf outputs)).size)
  totalDimensions := (plan.effectiveCaps outputs).size
  policy := plan.policy

end LayerPlan

end Statline
