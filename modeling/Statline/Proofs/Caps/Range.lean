import Statline.Caps.Effective
import Statline.Proofs.Double.Order
import Statline.Proofs.Except
import Statline.Proofs.Table

namespace Statline

namespace Caps

/-- Both bounds are as `Q` asks. -/
structure Bounds (Q : Float → Prop) (range : Caps) : Prop where
  min : Q range.min
  max : Q range.max

/-- The bounds are numbers, finite or not, and the lower one is not above the upper one. -/
structure Ordered (range : Caps) : Prop where
  min_isNaN : range.min.isNaN = false
  max_isNaN : range.max.isNaN = false
  le : range.min ≤ range.max

variable {Q : Float → Prop} {range other : Caps} {value : Float}

theorem bounds_fixed (h : Q value) : (fixed value).Bounds Q :=
  ⟨h, h⟩

theorem Bounds.normalized (h : range.Bounds Q) : range.normalized.Bounds Q := by
  unfold Caps.normalized
  split
  next => exact bounds_fixed h.max
  next => exact h

theorem Bounds.intersect (h : range.Bounds Q) (ho : other.Bounds Q) :
    (range.intersect other).Bounds Q :=
  ⟨Double.larger_of h.min ho.min, Double.smaller_of h.max ho.max⟩

theorem Bounds.union (h : range.Bounds Q) (ho : other.Bounds Q) : (range.union other).Bounds Q :=
  ⟨Double.smaller_of h.min ho.min, Double.larger_of h.max ho.max⟩

theorem Bounds.apply (h : range.Bounds Q) {mode : CapMode} (new : Q value)
    (sum : mode = .additive → ∀ x, Q x → Q (x + value)) : (range.apply mode value).Bounds Q := by
  cases mode with
  | baseline | override => exact bounds_fixed new
  | additive => exact ⟨sum rfl _ h.min, sum rfl _ h.max⟩
  | hardMax => exact ⟨h.min, new⟩
  | hardMin => exact ⟨new, h.max⟩

/-- Numbers can only be out of order, which normalizing repairs. -/
theorem Bounds.ordered_normalized (h : range.Bounds (·.isNaN = false)) :
    range.normalized.Ordered := by
  unfold Caps.normalized
  split
  next => exact ⟨h.max, h.max, Double.le_refl h.max⟩
  next kept => exact ⟨h.min, h.max, (Double.not_lt h.max h.min).mp kept⟩

theorem isValid_iff : range.isValid = true ↔
    range.min.isFinite = true ∧ range.max.isFinite = true ∧ range.min ≤ range.max := by
  simp only [isValid, Bool.and_eq_true, decide_eq_true_eq, and_assoc]

theorem ordered_of_isValid (h : range.isValid = true) : range.Ordered := by
  obtain ⟨hmin, hmax, le⟩ := isValid_iff.mp h
  exact ⟨Double.isNaN_of_isFinite hmin, Double.isNaN_of_isFinite hmax, le⟩

theorem bounds_of_isValid (h : range.isValid = true) : range.Bounds (·.isFinite = true) := by
  obtain ⟨hmin, hmax, _⟩ := isValid_iff.mp h
  exact ⟨hmin, hmax⟩

theorem checked_eq_ok {dimension : String} :
    checked dimension range.min range.max = .ok other ↔ range.isValid = true ∧ other = range := by
  unfold checked
  split
  next valid => exact ⟨fun same => ⟨valid, (Except.ok.inj same).symm⟩, fun h => h.2 ▸ rfl⟩
  next invalid => exact ⟨nofun, fun h => absurd h.1 invalid⟩

theorem checked_bind_eq_ok {dimension : String} :
    (checked dimension range.min range.max >>= fun _ => pure ()) = .ok () ↔
      range.isValid = true := by
  simp [bind_eq_ok, checked_eq_ok, pure, Except.pure]

/-- Whatever is clamped, not numbers and infinities included, ends between the bounds. -/
theorem Ordered.clamp (h : range.Ordered) (value : Float) :
    range.min ≤ range.clamp value ∧ range.clamp value ≤ range.max := by
  unfold Caps.clamp
  extract_lets number raised
  have hn : number.isNaN = false := by
    unfold number
    split
    next => exact h.min_isNaN
    next is => exact Bool.eq_false_iff.mpr is
  have hr : range.min ≤ raised := by
    unfold raised
    split
    next => exact Double.le_refl h.min_isNaN
    next above => exact (Double.not_lt hn h.min_isNaN).mp above
  split
  next => exact ⟨h.le, Double.le_refl h.max_isNaN⟩
  next below =>
    exact ⟨hr, (Double.not_lt h.max_isNaN (Double.le_iff.mp hr).2.1).mp below⟩

end Caps

theorem validateCaps_eq_ok {caps : Table Caps} :
    validateCaps caps = .ok () ↔
      caps.Every fun name range => Text.isBlank name = false ∧ range.isValid = true := by
  simp only [validateCaps, forM_eq_ok, Prod.forall, Table.Every, Table.get?_eq_some_iff]
  refine forall₃_congr fun name range _ => ?_
  cases blank : Text.isBlank name with
  | true => exact ⟨nofun, nofun⟩
  | false =>
    simpa using Caps.checked_bind_eq_ok

end Statline
