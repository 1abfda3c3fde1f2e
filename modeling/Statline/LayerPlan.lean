import Statline.Fault

namespace Statline

/-- The layers that count, in order, and the policy that joins their ranges. -/
structure LayerPlan where
  order : List Layer
  policy : LayerPolicy
deriving DecidableEq

namespace LayerPlan

def standard : LayerPlan := ⟨Layer.all, .intersect⟩

instance : Inhabited LayerPlan := ⟨standard⟩

/-- The first layer that also stands earlier in the list. -/
def firstRepeated (seen : List Layer) : List Layer → Option Layer
  | [] => none
  | layer :: rest => if layer ∈ seen then some layer else firstRepeated (layer :: seen) rest

def validateOrder (order : List Layer) : Except Fault Unit :=
  if order.isEmpty then .error (.invalidInput "layer order cannot be empty")
  else
    match firstRepeated [] order with
    | some layer => .error (.invalidInput ("duplicate layer in order: " ++ layer.name))
    | none => .ok ()

def validate (plan : LayerPlan) : Except Fault Unit :=
  validateOrder plan.order

def setOrder (plan : LayerPlan) (order : List Layer) : Except Fault LayerPlan := do
  validateOrder order
  return { plan with order }

def setOrderNames (plan : LayerPlan) (names : List String) : Except Fault LayerPlan := do
  plan.setOrder (← names.mapM (Vocabulary.parse Layer))

def setPolicy (plan : LayerPlan) (policy : LayerPolicy) : LayerPlan :=
  { plan with policy }

def index? (plan : LayerPlan) (layer : Layer) : Option Nat :=
  plan.order.idxOf? layer

def contains (plan : LayerPlan) (layer : Layer) : Bool :=
  plan.order.contains layer

/-- Order and policy are both replaced, or neither is. -/
def apply (_plan newer : LayerPlan) : Except Fault LayerPlan := do
  newer.validate
  return newer

end LayerPlan

end Statline
