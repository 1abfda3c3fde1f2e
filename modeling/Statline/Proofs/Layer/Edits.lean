import Statline.Document.Text
import Statline.Proofs.InPlace

namespace Statline.LayerPlan

variable {plan newer next : LayerPlan} {order seen : List Layer} {text : String}

theorem firstRepeated_eq_none :
    firstRepeated seen order = none ↔ order.Nodup ∧ ∀ layer ∈ order, layer ∉ seen := by
  induction order generalizing seen with
  | nil => simp [firstRepeated]
  | cons layer rest ih =>
    rw [firstRepeated, List.nodup_cons, List.forall_mem_cons]
    split
    next taken => exact ⟨nofun, fun h => absurd taken h.2.1⟩
    next new =>
      rw [ih]
      simp only [List.mem_cons, not_or]
      constructor
      · rintro ⟨distinct, apart⟩
        exact ⟨⟨fun again => (apart layer again).1 rfl, distinct⟩, new,
          fun other member => (apart other member).2⟩
      · rintro ⟨⟨once, distinct⟩, _, apart⟩
        exact ⟨distinct, fun other member => ⟨fun same => once (same ▸ member), apart other member⟩⟩

theorem validateOrder_eq_ok : validateOrder order = .ok () ↔ order ≠ [] ∧ order.Nodup := by
  unfold validateOrder
  split
  next empty => exact ⟨nofun, fun h => absurd (List.isEmpty_iff.mp empty) h.1⟩
  next filled =>
    have filled : order ≠ [] := mt List.isEmpty_iff.mpr filled
    have distinct : firstRepeated [] order = none ↔ order.Nodup := by
      simp [firstRepeated_eq_none]
    rw [and_iff_right filled, ← distinct]
    cases firstRepeated [] order with
    | none => exact iff_of_true rfl rfl
    | some layer => exact ⟨nofun, nofun⟩

/-- A change of the plan, documents included. -/
inductive Edit where
  | setOrder (order : List Layer)
  | setOrderNames (names : List String)
  | setPolicy (policy : LayerPolicy)
  | reset
  | apply (newer : LayerPlan)
  | load (text : String)

def edit (plan : LayerPlan) : Edit → Except Fault LayerPlan
  | .setOrder order => plan.setOrder order
  | .setOrderNames names => plan.setOrderNames names
  | .setPolicy policy => .ok (plan.setPolicy policy)
  | .reset => .ok standard
  | .apply newer => plan.apply newer
  | .load text => plan.load text

def writeOrder (order : List Layer) : InPlace LayerPlan Unit := do
  ofExcept (validateOrder order)
  modify ({ · with order })

def writeAll (newer : LayerPlan) : InPlace LayerPlan Unit := do
  ofExcept newer.validate
  modify fun _ => newer

/-- The edit as it is made in a plan that is shared. -/
def Edit.inPlace : Edit → InPlace LayerPlan Unit
  | .setOrder order => writeOrder order
  | .setOrderNames names => do
    writeOrder (← ofExcept (names.mapM (Vocabulary.parse Layer)))
  | .setPolicy policy => modify (·.setPolicy policy)
  | .reset => modify fun _ => standard
  | .apply newer => writeAll newer
  | .load text => do
    writeAll (← ofExcept (Document.load LayerPlan text))

theorem run_writeOrder (order : List Layer) (plan : LayerPlan) :
    (writeOrder order).run plan = settle plan (plan.setOrder order) :=
  run_ofExcept_bind fun _ => rfl

theorem run_writeAll (newer plan : LayerPlan) :
    (writeAll newer).run plan = settle plan (plan.apply newer) :=
  run_ofExcept_bind fun _ => rfl

/-- Nothing is written by an edit that fails. -/
theorem run_inPlace (made : Edit) (plan : LayerPlan) :
    made.inPlace.run plan = settle plan (plan.edit made) := by
  cases made with
  | setOrder order => exact run_writeOrder order plan
  | setOrderNames names => exact run_ofExcept_bind fun order => run_writeOrder order plan
  | setPolicy policy => rfl
  | reset => rfl
  | apply newer => exact run_writeAll newer plan
  | load text => exact run_ofExcept_bind fun newer => run_writeAll newer plan

theorem setOrder_eq_ok :
    plan.setOrder order = .ok next ↔ validateOrder order = .ok () ∧ { plan with order } = next :=
  check_pure_eq_ok

theorem apply_eq_ok : plan.apply newer = .ok next ↔ newer.validate = .ok () ∧ newer = next :=
  check_pure_eq_ok

theorem load_eq_ok :
    plan.load text = .ok next ↔
      Document.load LayerPlan text = .ok next ∧ next.validate = .ok () := by
  rw [load, bind_eq_ok]
  simp only [apply_eq_ok]
  constructor
  · rintro ⟨_, read, valid, rfl⟩
    exact ⟨read, valid⟩
  · rintro ⟨read, valid⟩
    exact ⟨next, read, valid, rfl⟩

theorem validate_of_edit {made : Edit} (h : plan.validate = .ok ())
    (changed : plan.edit made = .ok next) : next.validate = .ok () := by
  cases made with
  | setOrder order =>
    obtain ⟨valid, rfl⟩ := setOrder_eq_ok.mp changed
    exact valid
  | setOrderNames names =>
    obtain ⟨order, _, changed⟩ := bind_eq_ok.mp changed
    obtain ⟨valid, rfl⟩ := setOrder_eq_ok.mp changed
    exact valid
  | setPolicy policy => cases changed; exact h
  | reset => cases changed; rfl
  | apply newer =>
    have changed : plan.apply newer = .ok next := changed
    obtain ⟨valid, rfl⟩ := apply_eq_ok.mp changed
    exact valid
  | load text => exact (load_eq_ok.mp changed).2

end Statline.LayerPlan
