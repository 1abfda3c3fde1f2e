import Statline.Proofs.Caps.Containment
import Statline.Proofs.Double.Extremes

namespace Statline

namespace Caps

variable {range other : Caps}

/-- The bounds are the same numbers; a zero may differ in its sign. -/
structure Alike (range other : Caps) : Prop where
  min : (range.min == other.min) = true
  max : (range.max == other.max) = true

/-- An inverted range shrinks to its upper bound, so the lower bound is the smaller of the two. -/
theorem normalized_eq (h : range.Bounds (·.isNaN = false)) :
    range.normalized = ⟨Double.smaller range.min range.max, range.max⟩ := by
  unfold normalized Double.smaller
  rw [h.min, h.max]
  simp only [Bool.false_eq_true, if_false]
  split
  next => rfl
  next => rfl

theorem Alike.normalized (h : range.Alike other) : range.normalized.Alike other.normalized := by
  obtain ⟨hmin, hmin', sameMin⟩ := Double.beq_iff.mp h.min
  obtain ⟨hmax, hmax', sameMax⟩ := Double.beq_iff.mp h.max
  have inverted : range.min > range.max ↔ other.min > other.max := by
    simp only [GT.gt, Double.lt_iff, hmin, hmin', hmax, hmax', sameMin, sameMax]
  unfold Caps.normalized
  rw [if_congr inverted rfl rfl]
  by_cases shrinks : other.min > other.max
  · rw [if_pos shrinks, if_pos shrinks]
    exact ⟨h.max, h.max⟩
  · rw [if_neg shrinks, if_neg shrinks]
    exact h

theorem rel_normalized {found again : Option Caps} (h : Option.Rel Alike found again) :
    Option.Rel Alike (found.map Caps.normalized) (again.map Caps.normalized) := by
  cases h with
  | none => exact .none
  | some alike => exact .some alike.normalized

end Caps

namespace LayerPolicy

variable {policy : LayerPolicy} {ranges others : List Caps} {joined again : Caps}

/-- The ranges of one dimension in those layers that cap it. -/
def rangesOn (dimension : String) (layers : List (Table Caps)) : List Caps :=
  layers.filterMap (·.get? dimension)

/-- The ranges joined in their order, before the bounds are put in order. -/
def joinAll (policy : LayerPolicy) : List Caps → Option Caps
  | [] => none
  | first :: rest => some (rest.foldl policy.join first)

theorem foldl_merge_some (policy : LayerPolicy) (found : List (Option Caps)) (running : Caps) :
    found.foldl (Option.merge policy.join) (some running) =
      some (found.reduceOption.foldl policy.join running) := by
  induction found generalizing running with
  | nil => rfl
  | cons range rest ih =>
    cases range with
    | none => exact ih running
    | some range => exact ih (policy.join running range)

theorem foldl_merge_none (policy : LayerPolicy) (found : List (Option Caps)) :
    found.foldl (Option.merge policy.join) none = policy.joinAll found.reduceOption := by
  induction found with
  | nil => rfl
  | cons range rest ih =>
    cases range with
    | none => exact ih
    | some range => exact policy.foldl_merge_some rest range

theorem get?_combine_eq_joinAll (policy : LayerPolicy) (layers : List (Table Caps))
    (dimension : String) :
    (policy.combine layers).get? dimension =
      (policy.joinAll (rangesOn dimension layers)).map Caps.normalized := by
  rw [get?_combine, foldl_merge_none, List.reduceOption, List.filterMap_map]
  rfl

/-- The bounds that a policy makes of those of some ranges. -/
def Spans (ranges : List Caps) (joined : Caps) : LayerPolicy → Prop
  | intersect => IsGreatest {lo | lo ∈ ranges.map Caps.min} joined.min ∧
      IsLeast {hi | hi ∈ ranges.map Caps.max} joined.max
  | union => IsLeast {lo | lo ∈ ranges.map Caps.min} joined.min ∧
      IsGreatest {hi | hi ∈ ranges.map Caps.max} joined.max

/-- Each bound is joined on its own. -/
theorem bound_foldl (bound : Caps → Float) (pick : Float → Float → Float)
    {join : Caps → Caps → Caps} (each : ∀ a b, pick (bound a) (bound b) = bound (join a b))
    (first : Caps) (rest : List Caps) :
    bound (rest.foldl join first) = (rest.map bound).foldl pick (bound first) := by
  rw [List.foldl_map]
  exact (List.foldl_hom bound each).symm

theorem spans_of_joinAll (numbers : ∀ range ∈ ranges, range.Bounds (·.isNaN = false))
    (h : policy.joinAll ranges = some joined) : policy.Spans ranges joined := by
  cases ranges with
  | nil => cases h
  | cons first rest =>
    cases h
    have mins : ∀ lo ∈ (first :: rest).map Caps.min, lo.isNaN = false :=
      List.forall_mem_map.mpr fun range member => (numbers range member).min
    have maxs : ∀ hi ∈ (first :: rest).map Caps.max, hi.isNaN = false :=
      List.forall_mem_map.mpr fun range member => (numbers range member).max
    cases policy with
    | intersect =>
      constructor
      · rw [bound_foldl Caps.min Double.larger fun _ _ => rfl]
        exact Double.isGreatest_foldl_larger mins
      · rw [bound_foldl Caps.max Double.smaller fun _ _ => rfl]
        exact Double.isLeast_foldl_smaller maxs
    | union =>
      constructor
      · rw [bound_foldl Caps.min Double.smaller fun _ _ => rfl]
        exact Double.isLeast_foldl_smaller mins
      · rw [bound_foldl Caps.max Double.larger fun _ _ => rfl]
        exact Double.isGreatest_foldl_larger maxs

theorem Spans.of_perm (h : policy.Spans ranges joined) (perm : others.Perm ranges) :
    policy.Spans others joined := by
  have same (bound : Caps → Float) : {x | x ∈ others.map bound} = {x | x ∈ ranges.map bound} :=
    Set.ext fun _ => (perm.map bound).mem_iff
  cases policy with
  | intersect => simpa only [Spans, same] using h
  | union => simpa only [Spans, same] using h

theorem Spans.alike (h : policy.Spans ranges joined) (h' : policy.Spans ranges again) :
    joined.Alike again := by
  cases policy with
  | intersect => exact ⟨Double.beq_of_isGreatest h.1 h'.1, Double.beq_of_isLeast h.2 h'.2⟩
  | union => exact ⟨Double.beq_of_isLeast h.1 h'.1, Double.beq_of_isGreatest h.2 h'.2⟩

theorem joinAll_alike (policy : LayerPolicy)
    (numbers : ∀ range ∈ ranges, range.Bounds (·.isNaN = false))
    (perm : others.Perm ranges) :
    Option.Rel Caps.Alike (policy.joinAll others) (policy.joinAll ranges) := by
  cases others with
  | nil =>
    cases perm.nil_eq
    exact .none
  | cons first rest =>
    cases ranges with
    | nil => cases perm.eq_nil
    | cons second later =>
      have permuted : ∀ range ∈ first :: rest, range.Bounds (·.isNaN = false) :=
        fun range member => numbers range (perm.mem_iff.mp member)
      have spans := (policy.spans_of_joinAll permuted rfl).of_perm perm.symm
      exact .some (spans.alike (spans_of_joinAll numbers rfl))

theorem isSome_get?_combine (policy : LayerPolicy) (layers : List (Table Caps))
    (dimension : String) :
    ((policy.combine layers).get? dimension).isSome ↔
      ∃ caps ∈ layers, (caps.get? dimension).isSome := by
  rw [get?_combine, Option.isSome_map, isSome_foldl_merge]
  simp only [List.mem_map, exists_exists_and_eq_and]

theorem bounds_of_mem_rangesOn {layers : List (Table Caps)} (dimension : String)
    (numbers : ∀ caps ∈ layers, caps.Every fun _ range => range.Bounds (·.isNaN = false)) :
    ∀ range ∈ rangesOn dimension layers, range.Bounds (·.isNaN = false) := by
  intro range member
  obtain ⟨caps, layer, held⟩ := List.mem_filterMap.mp member
  exact numbers caps layer dimension range held

theorem Spans.bounds (numbers : ∀ range ∈ ranges, range.Bounds (·.isNaN = false))
    (h : policy.Spans ranges joined) : joined.Bounds (·.isNaN = false) := by
  have members : joined.min ∈ ranges.map Caps.min ∧ joined.max ∈ ranges.map Caps.max := by
    cases policy with
    | intersect | union => exact ⟨h.1.1, h.2.1⟩
  obtain ⟨lower, hl, sameMin⟩ := List.mem_map.mp members.1
  obtain ⟨upper, hu, sameMax⟩ := List.mem_map.mp members.2
  exact ⟨sameMin ▸ (numbers lower hl).min, sameMax ▸ (numbers upper hu).max⟩

theorem Spans.ordered (ordered : ∀ range ∈ ranges, range.min ≤ range.max)
    (h : LayerPolicy.union.Spans ranges joined) : joined.Ordered := by
  obtain ⟨range, member, same⟩ := List.mem_map.mp h.1.1
  have below : joined.min ≤ range.min := h.1.2 (List.mem_map_of_mem member)
  have above : range.max ≤ joined.max := h.2.2 (List.mem_map_of_mem member)
  have le := Double.le_trans (Double.le_trans below (ordered range member)) above
  exact ⟨(Double.le_iff.mp le).1, (Double.le_iff.mp le).2.1, le⟩

/-- Across layers a dimension is capped if some layer caps it. Its range under `intersect` reaches
from the greatest lower bound of these layers to the least upper one, and shrinks to the latter if
they conflict; under `union` it reaches from the least lower bound to the greatest upper one. So
it makes no difference in which order the layers come. -/
theorem combine_eq_extremes (layers : List (Table Caps))
    (numbers : ∀ caps ∈ layers, caps.Every fun _ range => range.Bounds (·.isNaN = false))
    (dimension : String) :
    (∀ policy : LayerPolicy, (policy.combine layers).contains dimension = true ↔
      ∃ caps ∈ layers, caps.contains dimension = true) ∧
    (∀ range, (intersect.combine layers).get? dimension = some range →
      ∃ lo hi, IsGreatest {lo | lo ∈ (rangesOn dimension layers).map Caps.min} lo ∧
        IsLeast {hi | hi ∈ (rangesOn dimension layers).map Caps.max} hi ∧
        range = ⟨Double.smaller lo hi, hi⟩) ∧
    (∀ range, (union.combine layers).get? dimension = some range →
      (∀ own ∈ rangesOn dimension layers, own.min ≤ own.max) →
      ∃ lo hi, IsLeast {lo | lo ∈ (rangesOn dimension layers).map Caps.min} lo ∧
        IsGreatest {hi | hi ∈ (rangesOn dimension layers).map Caps.max} hi ∧
        range = ⟨lo, hi⟩) ∧
    ∀ (policy : LayerPolicy) (others : List (Table Caps)), others.Perm layers →
      Option.Rel Caps.Alike ((policy.combine others).get? dimension)
        ((policy.combine layers).get? dimension) := by
  have own := bounds_of_mem_rangesOn dimension numbers
  refine ⟨fun policy => policy.isSome_get?_combine layers dimension, ?_, ?_, ?_⟩
  · intro range held
    rw [get?_combine_eq_joinAll] at held
    obtain ⟨joined, hj, rfl⟩ := Option.map_eq_some_iff.mp held
    have spans := spans_of_joinAll own hj
    exact ⟨joined.min, joined.max, spans.1, spans.2, Caps.normalized_eq (spans.bounds own)⟩
  · intro range held ordered
    rw [get?_combine_eq_joinAll] at held
    obtain ⟨joined, hj, rfl⟩ := Option.map_eq_some_iff.mp held
    have spans := spans_of_joinAll own hj
    exact ⟨joined.min, joined.max, spans.1, spans.2, (spans.ordered ordered).normalized_eq⟩
  · intro policy others perm
    rw [get?_combine_eq_joinAll, get?_combine_eq_joinAll]
    have ranges : (rangesOn dimension others).Perm (rangesOn dimension layers) := perm.filterMap _
    exact Caps.rel_normalized (policy.joinAll_alike own ranges)

/-- Three layers of which no two hold the same bound, and the first two no value in common. -/
def crossing : List (Table Caps) :=
  [Table.ofList [("health", ⟨0, 10⟩)], Table.ofList [("health", ⟨20, 30⟩), ("mana", ⟨1, 2⟩)],
    Table.ofList [("health", ⟨5, 25⟩)]]

theorem extremes_of_crossing :
    (∀ caps ∈ crossing, caps.Every fun _ range => range.Bounds (·.isNaN = false)) ∧
      (intersect.combine crossing).get? "health" = some ⟨10, 10⟩ ∧
      (union.combine crossing).get? "health" = some ⟨0, 30⟩ ∧
      (∃ lo hi, IsGreatest {lo | lo ∈ (rangesOn "health" crossing).map Caps.min} lo ∧
        IsLeast {hi | hi ∈ (rangesOn "health" crossing).map Caps.max} hi ∧
        Caps.mk 10 10 = ⟨Double.smaller lo hi, hi⟩) ∧
      Option.Rel Caps.Alike ((union.combine crossing.reverse).get? "health")
        ((union.combine crossing).get? "health") := by
  have entries : ∀ caps ∈ crossing, ∀ entry ∈ caps.entries,
      entry.2.min.isNaN = false ∧ entry.2.max.isNaN = false := by
    decide +kernel
  have numbers : ∀ caps ∈ crossing, caps.Every fun _ range => range.Bounds (·.isNaN = false) := by
    intro caps member name range held
    obtain ⟨hmin, hmax⟩ := entries caps member _ (Table.get?_eq_some_iff.mp held)
    exact ⟨hmin, hmax⟩
  have strict : (intersect.combine crossing).get? "health" = some ⟨10, 10⟩ := by decide +kernel
  have loose : (union.combine crossing).get? "health" = some ⟨0, 30⟩ := by decide +kernel
  obtain ⟨_, narrowed, _, reordered⟩ := combine_eq_extremes crossing numbers "health"
  exact ⟨numbers, strict, loose, narrowed _ strict, reordered .union _ crossing.reverse_perm⟩

end LayerPolicy

end Statline
