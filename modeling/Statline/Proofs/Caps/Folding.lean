import Statline.Caps.Effective
import Statline.Proofs.Caps.Range
import Statline.Proofs.Double.Addition
import Statline.Proofs.Table

namespace Statline

variable {Q : Float → Prop}

/-- The value of the cap is as `Q` asks, and so is what it makes of a bound that is. -/
structure CapContribution.Keeps (Q : Float → Prop) (cap : CapContribution) : Prop where
  value : Q cap.value
  sum : cap.mode = .additive → ∀ bound, Q bound → Q (bound + cap.value)

theorem CapContribution.bounds_of_fold {caps : List CapContribution} {range : Caps}
    (h : ∀ cap ∈ caps, cap.Keeps Q) (folded : fold caps = some range) : range.Bounds Q := by
  cases caps with
  | nil => cases folded
  | cons first rest =>
    obtain ⟨hf, hr⟩ := List.forall_mem_cons.mp h
    cases folded
    exact List.foldlRecOn rest _ (Caps.bounds_fixed hf.value) fun _ running cap member =>
      running.apply (hr cap member).value (hr cap member).sum

/-- The range of a dimension in a layer is that of its own caps there. -/
theorem Layer.get?_caps (layer : Layer) (contributions : List CapContribution)
    (dimension : String) :
    (layer.caps contributions).get? dimension =
      (CapContribution.fold (ranked CapContribution.priority
        ((contributions.filter (·.scope = layer)).filter (·.dimension = dimension)))).map
          Caps.normalized := by
  simp only [caps, Table.get?_filterMap, Table.get?_tabulate]
  split
  next => rfl
  next absent =>
    have empty :
        (contributions.filter (·.scope = layer)).filter (·.dimension = dimension) = [] := by
      refine List.filter_eq_nil_iff.mpr fun cap member same => absent ?_
      exact List.mem_map.mpr ⟨cap, member, of_decide_eq_true same⟩
    rw [empty, ranked_of_pairwise .nil]
    rfl

theorem Layer.exists_bounds_of_get?_caps (layer : Layer) {contributions : List CapContribution}
    {dimension : String} {range : Caps} (h : ∀ cap ∈ contributions, cap.Keeps Q)
    (held : (layer.caps contributions).get? dimension = some range) :
    ∃ folded : Caps, folded.Bounds Q ∧ range = folded.normalized := by
  rw [get?_caps] at held
  obtain ⟨folded, hf, rfl⟩ := Option.map_eq_some_iff.mp held
  refine ⟨folded, CapContribution.bounds_of_fold (fun cap member => h cap ?_) hf, rfl⟩
  have inLayer := List.mem_of_mem_filter ((ranked_perm _ _).mem_iff.mp member)
  exact List.mem_of_mem_filter inLayer

theorem Layer.every_bounds_caps (layer : Layer) {contributions : List CapContribution}
    (h : ∀ cap ∈ contributions, cap.Keeps Q) :
    (layer.caps contributions).Every fun _ range => range.Bounds Q := by
  intro dimension range held
  obtain ⟨folded, bounds, rfl⟩ := layer.exists_bounds_of_get?_caps h held
  exact bounds.normalized

namespace LayerPolicy

variable (policy : LayerPolicy)

theorem bounds_join {a b : Caps} (ha : a.Bounds Q) (hb : b.Bounds Q) :
    (policy.join a b).Bounds Q := by
  cases policy with
  | intersect => exact ha.intersect hb
  | union => exact ha.union hb

theorem get?_absorb (result : Table Caps) (name dimension : String) (range : Caps) :
    (policy.absorb result name range).get? dimension =
      (result.get? dimension).merge policy.join
        (if dimension = name then some range else none) := by
  rw [absorb, Table.get?_insert]
  split
  next same =>
    rw [same]
    cases result.get? name <;> rfl
  next => cases result.get? dimension <;> rfl

theorem get?_foldl_absorb {entries : List (String × Caps)}
    (ascending : entries.Pairwise fun a b => a.1 < b.1) (result : Table Caps)
    (dimension : String) :
    (entries.foldl (fun r entry => policy.absorb r entry.1 entry.2) result).get? dimension =
      (result.get? dimension).merge policy.join (Table.find dimension entries) := by
  induction entries generalizing result with
  | nil => exact Option.merge_none_right.symm
  | cons entry rest ih =>
    obtain ⟨first, tail⟩ := List.pairwise_cons.mp ascending
    rw [List.foldl_cons, ih tail, get?_absorb]
    by_cases same : dimension = entry.1
    · subst same
      rw [Table.find_eq_none first]
      simp [Table.find]
    · simp [Table.find, same, Ne.symm same]

/-- The ranges of the layers that cap a dimension are joined in the order of the layers. -/
theorem get?_combine (layers : List (Table Caps)) (dimension : String) :
    (policy.combine layers).get? dimension =
      ((layers.map (·.get? dimension)).foldl (Option.merge policy.join) none).map
        Caps.normalized := by
  suffices general : ∀ result : Table Caps,
      (layers.foldl (fun result caps =>
        caps.entries.foldl (fun r entry => policy.absorb r entry.1 entry.2) result)
        result).get? dimension =
        (layers.map (·.get? dimension)).foldl (Option.merge policy.join) (result.get? dimension) by
    rw [combine, Table.get?_map, general]
    rfl
  intro result
  induction layers generalizing result with
  | nil => rfl
  | cons caps rest ih =>
    rw [List.foldl_cons, ih, policy.get?_foldl_absorb caps.ascending]
    rfl

theorem bounds_merge {a b : Option Caps} (ha : ∀ range ∈ a, range.Bounds Q)
    (hb : ∀ range ∈ b, range.Bounds Q) : ∀ range ∈ a.merge policy.join b, range.Bounds Q := by
  intro range merged
  cases a with
  | none => exact hb range (by simpa using merged)
  | some first =>
    cases b with
    | none => exact ha range (by simpa using merged)
    | some second =>
      cases merged
      exact policy.bounds_join (ha first rfl) (hb second rfl)

theorem bounds_foldl_merge {ranges : List (Option Caps)}
    (h : ∀ found ∈ ranges, ∀ range ∈ found, range.Bounds Q) :
    ∀ range ∈ ranges.foldl (Option.merge policy.join) none, range.Bounds Q :=
  List.foldlRecOn (motive := fun result : Option Caps => ∀ range ∈ result, range.Bounds Q)
    ranges _ nofun fun _ running found member =>
      policy.bounds_merge running (h found member)

theorem every_bounds_combine {layers : List (Table Caps)}
    (h : ∀ caps ∈ layers, caps.Every fun _ range => range.Bounds Q) :
    (policy.combine layers).Every fun _ range =>
      ∃ joined : Caps, joined.Bounds Q ∧ range = joined.normalized := by
  intro dimension range held
  rw [get?_combine] at held
  obtain ⟨joined, hj, rfl⟩ := Option.map_eq_some_iff.mp held
  refine ⟨joined, policy.bounds_foldl_merge (fun found member range hr => ?_) joined hj, rfl⟩
  obtain ⟨caps, layer, rfl⟩ := List.mem_map.mp member
  exact h caps layer dimension range hr

end LayerPolicy

theorem LayerPlan.get?_effectiveCaps (plan : LayerPlan) (outputs : List Output)
    (dimension : String) :
    (plan.effectiveCaps outputs).get? dimension =
      ((plan.order.map fun layer => (layer.caps (capsOf outputs)).get? dimension).foldl
        (Option.merge plan.policy.join) none).map Caps.normalized := by
  rw [effectiveCaps, LayerPolicy.get?_combine, layerCaps, List.map_map]
  rfl

/-- Each effective range is normalized from two bounds that are as the caps ask. -/
theorem LayerPlan.every_bounds_effectiveCaps (plan : LayerPlan) {outputs : List Output}
    (h : ∀ cap ∈ capsOf outputs, cap.Keeps Q) :
    (plan.effectiveCaps outputs).Every fun _ range =>
      ∃ joined : Caps, joined.Bounds Q ∧ range = joined.normalized := by
  refine plan.policy.every_bounds_combine fun caps member => ?_
  obtain ⟨layer, _, rfl⟩ := List.mem_map.mp member
  exact layer.every_bounds_caps h

theorem CapContribution.keeps_number {cap : CapContribution} (h : cap.value.isFinite = true) :
    cap.Keeps (·.isNaN = false) :=
  ⟨Double.isNaN_of_isFinite h, fun _ _ number => Double.isNaN_add number h⟩

namespace LayerPlan

variable (plan : LayerPlan) {outputs : List Output}

theorem every_ordered_effectiveCaps (h : ∀ cap ∈ capsOf outputs, cap.value.isFinite = true) :
    (plan.effectiveCaps outputs).Every fun _ range => range.Ordered := by
  intro dimension range held
  obtain ⟨joined, bounds, rfl⟩ := plan.every_bounds_effectiveCaps
    (fun cap member => CapContribution.keeps_number (h cap member)) dimension range held
  exact bounds.ordered_normalized

theorem every_finite_effectiveCaps (h : ∀ cap ∈ capsOf outputs, cap.value.isFinite = true)
    (sums : ∀ cap ∈ capsOf outputs, cap.mode = .additive → ∀ bound : Float,
      bound.isFinite = true → (bound + cap.value).isFinite = true) :
    (plan.effectiveCaps outputs).Every fun _ range => range.Bounds (·.isFinite = true) := by
  intro dimension range held
  obtain ⟨joined, bounds, rfl⟩ := plan.every_bounds_effectiveCaps
    (fun cap member => ⟨h cap member, sums cap member⟩) dimension range held
  exact bounds.normalized

end LayerPlan

end Statline
