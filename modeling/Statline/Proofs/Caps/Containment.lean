import Statline.Proofs.Caps.Folding
import Statline.Proofs.Roster.Accepted

namespace Statline

/-- What lies in the inner range lies in the outer one. -/
structure Caps.Within (inner outer : Caps) : Prop where
  min : outer.min ≤ inner.min
  max : inner.max ≤ outer.max

/-- How the intersection of some ordered ranges, which may be out of order, stands to their union:
it lies within the union, and so does its upper bound alone, to which it may yet shrink. -/
structure Caps.Envelops (loose strict : Caps) : Prop where
  numbers : strict.Bounds (·.isNaN = false)
  within : strict.Within loose
  reaches : loose.min ≤ strict.max

namespace Caps

variable {range strict loose : Caps}

theorem Ordered.envelops (h : range.Ordered) : range.Envelops range :=
  ⟨⟨h.min_isNaN, h.max_isNaN⟩, ⟨Double.le_refl h.min_isNaN, Double.le_refl h.max_isNaN⟩, h.le⟩

theorem Envelops.ordered (h : loose.Envelops strict) : loose.Ordered where
  min_isNaN := (Double.le_iff.mp h.reaches).1
  max_isNaN := (Double.le_iff.mp h.within.max).2.1
  le := Double.le_trans h.reaches h.within.max

theorem Envelops.join (h : loose.Envelops strict) (hr : range.Ordered) :
    (loose.union range).Envelops (strict.intersect range) := by
  have loosened := Double.smaller_le h.ordered.min_isNaN hr.min_isNaN
  have raised := Double.le_larger h.ordered.max_isNaN hr.max_isNaN
  have bounds : range.Bounds (·.isNaN = false) := ⟨hr.min_isNaN, hr.max_isNaN⟩
  refine ⟨h.numbers.intersect bounds, ⟨?_, ?_⟩, ?_⟩
  · have narrowed := Double.le_larger h.numbers.min hr.min_isNaN
    exact Double.le_trans loosened.1 (Double.le_trans h.within.min narrowed.1)
  · have narrowed := Double.smaller_le h.numbers.max hr.max_isNaN
    exact Double.le_trans narrowed.1 (Double.le_trans h.within.max raised.1)
  · -- each upper bound is above the lower bound of its own range, which the union does not exceed
    exact Double.smaller_of (Q := fun upper => (loose.union range).min ≤ upper)
      (Double.le_trans loosened.1 h.reaches) (Double.le_trans loosened.2 hr.le)

theorem Ordered.normalized_eq (h : range.Ordered) : range.normalized = range :=
  if_neg ((Double.not_lt h.max_isNaN h.min_isNaN).mpr h.le)

theorem Envelops.within_normalized (h : loose.Envelops strict) :
    strict.normalized.Within loose.normalized := by
  rw [h.ordered.normalized_eq, normalized]
  split
  next => exact ⟨h.reaches, h.within.max⟩
  next => exact h.within

end Caps

theorem CapContribution.isSome_fold (caps : List CapContribution) :
    (fold caps).isSome = !caps.isEmpty := by
  cases caps <;> rfl

theorem Layer.every_ordered_caps (layer : Layer) {contributions : List CapContribution}
    (h : ∀ cap ∈ contributions, cap.value.isFinite = true) :
    (layer.caps contributions).Every fun _ range => range.Ordered := by
  intro dimension range held
  obtain ⟨folded, bounds, rfl⟩ := layer.exists_bounds_of_get?_caps
    (fun cap member => CapContribution.keeps_number (h cap member)) held
  exact bounds.ordered_normalized

theorem Layer.isSome_get?_caps (layer : Layer) (contributions : List CapContribution)
    (dimension : String) :
    ((layer.caps contributions).get? dimension).isSome ↔
      ∃ cap ∈ contributions, cap.scope = layer ∧ cap.dimension = dimension := by
  rw [get?_caps, Option.isSome_map, CapContribution.isSome_fold, Bool.not_eq_true',
    List.isEmpty_eq_false_iff_exists_mem]
  constructor
  · rintro ⟨cap, member⟩
    have kept := (ranked_perm _ _).mem_iff.mp member
    simp only [List.mem_filter, decide_eq_true_eq] at kept
    exact ⟨cap, kept.1.1, kept.1.2, kept.2⟩
  · rintro ⟨cap, member, scope, same⟩
    refine ⟨cap, (ranked_perm _ _).mem_iff.mpr ?_⟩
    simp [member, scope, same]

theorem LayerPolicy.isSome_foldl_merge (policy : LayerPolicy) (ranges : List (Option Caps)) :
    (ranges.foldl (Option.merge policy.join) none).isSome ↔ ∃ found ∈ ranges, found.isSome := by
  suffices general : ∀ start : Option Caps,
      (ranges.foldl (Option.merge policy.join) start).isSome ↔
        start.isSome ∨ ∃ found ∈ ranges, found.isSome by
    simpa using general none
  induction ranges with
  | nil => simp
  | cons found rest ih =>
    intro start
    rw [List.foldl_cons, ih, Option.isSome_merge]
    simp [or_assoc]

namespace LayerPlan

/-- Whatever the policy, a dimension is capped if it has a cap in one of the layers that count. -/
theorem contains_effectiveCaps (plan : LayerPlan) (outputs : List Output) (dimension : String) :
    (plan.effectiveCaps outputs).contains dimension = true ↔
      ∃ cap ∈ capsOf outputs, cap.scope ∈ plan.order ∧ cap.dimension = dimension := by
  rw [Table.contains, get?_effectiveCaps, Option.isSome_map, LayerPolicy.isSome_foldl_merge]
  constructor
  · rintro ⟨found, member, capped⟩
    obtain ⟨layer, ordered, rfl⟩ := List.mem_map.mp member
    obtain ⟨cap, given, rfl, same⟩ := (layer.isSome_get?_caps _ _).mp capped
    exact ⟨cap, given, ordered, same⟩
  · rintro ⟨cap, given, ordered, same⟩
    exact ⟨_, List.mem_map.mpr ⟨cap.scope, ordered, rfl⟩,
      (cap.scope.isSome_get?_caps _ _).mpr ⟨cap, given, rfl, same⟩⟩

/-- The two policies join the ranges of the layers in step. -/
theorem envelops_foldl_merge {ranges : List (Option Caps)}
    (h : ∀ found ∈ ranges, ∀ range ∈ found, range.Ordered) :
    Option.Rel Caps.Envelops (ranges.foldl (Option.merge (LayerPolicy.join .union)) none)
      (ranges.foldl (Option.merge (LayerPolicy.join .intersect)) none) := by
  refine List.foldl_rel (r := Option.Rel Caps.Envelops) .none fun found member loose strict so => ?_
  cases found with
  | none => simpa using so
  | some range =>
    have ordered := h _ member range rfl
    cases so with
    | none => exact .some ordered.envelops
    | some envelops => exact .some (envelops.join ordered)

theorem within_of_effectiveCaps (order : List Layer) {outputs : List Output}
    (h : ∀ cap ∈ capsOf outputs, cap.value.isFinite = true) {dimension : String}
    {strict loose : Caps}
    (hs : ((LayerPlan.mk order .intersect).effectiveCaps outputs).get? dimension = some strict)
    (hl : ((LayerPlan.mk order .union).effectiveCaps outputs).get? dimension = some loose) :
    strict.Within loose := by
  rw [get?_effectiveCaps] at hs hl
  obtain ⟨joined, hj, rfl⟩ := Option.map_eq_some_iff.mp hs
  obtain ⟨merged, hm, rfl⟩ := Option.map_eq_some_iff.mp hl
  have ordered : ∀ found ∈ order.map fun layer => (layer.caps (capsOf outputs)).get? dimension,
      ∀ range ∈ found, range.Ordered := by
    intro found member range held
    obtain ⟨layer, _, rfl⟩ := List.mem_map.mp member
    exact layer.every_ordered_caps h dimension range held
  dsimp only at hj hm
  have envelops := envelops_foldl_merge ordered
  rw [hj, hm] at envelops
  cases envelops with
  | some envelops => exact envelops.within_normalized

/-- The caps of valid outputs are ordered numbers in each layer and, under either policy, across
the layers in any order. Both policies cap the same dimensions, and the range under `intersect`
lies within the range under `union`, whether or not the layers agree. -/
theorem intersect_within_union (order : List Layer) (outputs : List Output)
    (valid : ∀ output ∈ outputs, output.validate = .ok ()) :
    (∀ layer : Layer, (layer.caps (capsOf outputs)).Every fun _ range => range.Ordered) ∧
    (∀ policy, ((LayerPlan.mk order policy).effectiveCaps outputs).Every
      fun _ range => range.Ordered) ∧
    ∀ dimension,
      (∀ policy, ((LayerPlan.mk order policy).effectiveCaps outputs).contains dimension = true ↔
        ∃ cap ∈ capsOf outputs, cap.scope ∈ order ∧ cap.dimension = dimension) ∧
      ∀ strict loose,
        ((LayerPlan.mk order .intersect).effectiveCaps outputs).get? dimension = some strict →
        ((LayerPlan.mk order .union).effectiveCaps outputs).get? dimension = some loose →
        strict.Within loose := by
  have finite : ∀ cap ∈ capsOf outputs, cap.value.isFinite = true :=
    fun _ => isFinite_of_validated valid
  refine ⟨fun layer => layer.every_ordered_caps finite, ?_, fun dimension => ⟨?_, ?_⟩⟩
  · exact fun policy => every_ordered_effectiveCaps ⟨order, policy⟩ finite
  · exact fun policy => contains_effectiveCaps ⟨order, policy⟩ outputs dimension
  · exact fun strict loose hs hl => within_of_effectiveCaps order finite hs hl

/-- Two layers that leave no value in common. -/
def conflicting : List Output :=
  let pin (scope : Layer) (value : Float) : CapContribution :=
    ⟨"gear", "health", .baseline, value, 0, scope, none, []⟩
  [⟨[], [], [pin .world 100, pin .guild 50], ⟨"gear", 1⟩⟩]

theorem within_of_conflicting :
    (∀ output ∈ conflicting, output.validate = .ok ()) ∧
      (standard.effectiveCaps conflicting).get? "health" = some ⟨50, 50⟩ ∧
      ((LayerPlan.mk Layer.all .union).effectiveCaps conflicting).get? "health" = some ⟨50, 100⟩ ∧
      (Caps.mk 50 50).Within ⟨50, 100⟩ := by
  have valid : ∀ output ∈ conflicting, output.validate = .ok () := by decide +kernel
  have strict : (standard.effectiveCaps conflicting).get? "health" = some ⟨50, 50⟩ := by
    decide +kernel
  have loose : ((LayerPlan.mk Layer.all .union).effectiveCaps conflicting).get? "health" =
      some ⟨50, 100⟩ := by
    decide +kernel
  refine ⟨valid, strict, loose, ?_⟩
  exact ((intersect_within_union Layer.all conflicting valid).2.2 "health").2 _ _ strict loose

end LayerPlan

end Statline
