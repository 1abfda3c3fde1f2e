import Statline.Proofs.Caps.Folding
import Statline.Proofs.Rule.History
import Statline.Snapshot.Compute

namespace Statline.Snapshot

variable {rules : RuleBook} {effective : Table Caps} {contributions : List Contribution}
  {outputs : List Output} {snapshot : Snapshot}

def dimensions (contributions : List Contribution) : List String :=
  contributions.map (·.dimension)

/-- The combination of the contributions to a dimension, before any range is applied to it. -/
def raw (rules : RuleBook) (contributions : List Contribution) (dimension : String) : Float :=
  rules.combine dimension (contributions.filter (·.dimension = dimension))

/-- Each dimension contributed to is bounded by its range in `used`; one that has none keeps its
combination if that is finite. No other dimension has a value. -/
structure Follows (rules : RuleBook) (used : Table Caps) (contributions : List Contribution)
    (values : Table Float) : Prop where
  clamped : ∀ dimension ∈ dimensions contributions, ∀ range, used.get? dimension = some range →
    ∃ value, values.get? dimension = some value ∧
      value = range.clamp (raw rules contributions dimension) ∧
      range.min ≤ value ∧ value ≤ range.max
  unclamped : ∀ dimension ∈ dimensions contributions, used.get? dimension = none →
    values.get? dimension =
      if (raw rules contributions dimension).isFinite then some (raw rules contributions dimension)
      else none
  absent : ∀ dimension ∉ dimensions contributions, values.get? dimension = none

/-- The ranges in use account for every value of the snapshot. They are the effective caps and,
where a dimension contributed to has none, the clamp of its rule. -/
structure Accounts (rules : RuleBook) (effective : Table Caps) (outputs : List Output)
    (snapshot : Snapshot) : Prop where
  used : ∀ dimension, snapshot.capsUsed.get? dimension =
    (effective.get? dimension).or
      (if dimension ∈ dimensions (outputs.flatMap (·.primary) ++ outputs.flatMap (·.derived)) then
        (rules.rule? dimension).map (·.clampDefault)
      else none)
  ordered : snapshot.capsUsed.Every fun _ range => range.Ordered
  primary : Follows rules snapshot.capsUsed (outputs.flatMap (·.primary)) snapshot.primary
  derived : Follows rules snapshot.capsUsed (outputs.flatMap (·.derived)) snapshot.derived

theorem get?_values (rules : RuleBook) (effective : Table Caps)
    (contributions : List Contribution) (dimension : String) :
    (values rules effective contributions).get? dimension =
      if dimension ∈ dimensions contributions then
        bounded (rangeFor rules effective dimension) (raw rules contributions dimension)
      else none := by
  rw [values, Table.get?_filterMap, Table.get?_tabulate]
  exact apply_ite (Option.bind · _) _ _ _

/-- The clamp that is put to use for a dimension once it is contributed to. -/
def spareRange (rules : RuleBook) (effective : Table Caps) (dimension : String) : Option Caps :=
  match effective.get? dimension with
  | some _ => none
  | none => (rules.rule? dimension).map (·.clampDefault)

def useSpare (rules : RuleBook) (effective used : Table Caps) (dimension : String) : Table Caps :=
  match spareRange rules effective dimension with
  | some range => used.insert dimension range
  | none => used

theorem usedCaps_eq (rules : RuleBook) (effective : Table Caps)
    (contributions : List Contribution) :
    usedCaps rules effective contributions =
      (dimensions contributions).foldl (useSpare rules effective) effective := by
  rw [usedCaps, dimensions, List.foldl_map]
  congr
  funext used contribution
  cases he : effective.get? contribution.dimension <;>
    cases hr : rules.rule? contribution.dimension <;>
    simp [useSpare, spareRange, he, hr]

theorem get?_useSpare (used : Table Caps) (name dimension : String) :
    (useSpare rules effective used name).get? dimension =
      (if dimension = name then spareRange rules effective dimension else none).or
        (used.get? dimension) := by
  unfold useSpare
  split
  next range spare =>
    rw [Table.get?_insert]
    split
    next same => rw [same, spare, Option.some_or]
    next => rfl
  next spare =>
    split
    next same => rw [same, spare, Option.none_or]
    next => rfl

theorem get?_foldl_useSpare (names : List String) (used : Table Caps) (dimension : String) :
    (names.foldl (useSpare rules effective) used).get? dimension =
      (if dimension ∈ names then spareRange rules effective dimension else none).or
        (used.get? dimension) := by
  induction names generalizing used with
  | nil => simp
  | cons name rest ih =>
    rw [List.foldl_cons, ih, get?_useSpare, ← Option.or_assoc]
    by_cases same : dimension = name
    · subst same
      by_cases member : dimension ∈ rest <;> simp [member]
    · simp [same]

theorem get?_usedCaps (rules : RuleBook) (effective : Table Caps)
    (contributions : List Contribution) (dimension : String) :
    (usedCaps rules effective contributions).get? dimension =
      (effective.get? dimension).or
        (if dimension ∈ dimensions contributions then
          (rules.rule? dimension).map (·.clampDefault)
        else none) := by
  rw [usedCaps_eq, get?_foldl_useSpare]
  cases he : effective.get? dimension <;> simp [spareRange, he]

theorem follows_values {used : Table Caps} (ordered : used.Every fun _ range => range.Ordered)
    (same : ∀ dimension ∈ dimensions contributions,
      rangeFor rules effective dimension = used.get? dimension) :
    Follows rules used contributions (values rules effective contributions) := by
  refine ⟨?_, ?_, ?_⟩
  · intro dimension member range held
    rw [get?_values, if_pos member, same dimension member, held]
    have inside := (ordered dimension range held).clamp (raw rules contributions dimension)
    exact ⟨_, rfl, rfl, inside.1, inside.2⟩
  · intro dimension member free
    rw [get?_values, if_pos member, same dimension member, free]
    rfl
  · intro dimension absent
    rw [get?_values, if_neg absent]

theorem isValid_of_clampDefault (valid : rules.validate = .ok ()) {dimension : String}
    {range : Caps} (h : (rules.rule? dimension).map (·.clampDefault) = some range) :
    range.isValid = true := by
  obtain ⟨rule, held, rfl⟩ := Option.map_eq_some_iff.mp h
  exact RuleBook.isValid_clampDefault valid held

/-- The effective caps need no check for this: they are ordered once their contributions are
finite. -/
theorem accounts_compute (layers : LayerPlan) (actor : Actor) (valid : rules.validate = .ok ())
    (finite : ∀ cap ∈ capsOf outputs, cap.value.isFinite = true) :
    Accounts rules (layers.effectiveCaps outputs) outputs
      (compute rules layers outputs actor) := by
  have used := get?_usedCaps rules (layers.effectiveCaps outputs)
    (outputs.flatMap (·.primary) ++ outputs.flatMap (·.derived))
  have ordered : (compute rules layers outputs actor).capsUsed.Every
      fun _ range => range.Ordered := by
    intro dimension range held
    rcases Option.or_eq_some_iff.mp ((used dimension).symm.trans held) with capped | ⟨_, spare⟩
    · exact layers.every_ordered_effectiveCaps finite dimension range capped
    · split at spare
      next => exact Caps.ordered_of_isValid (isValid_of_clampDefault valid spare)
      next => cases spare
  have contributed {dimension : String} (member : dimension ∈ dimensions
      (outputs.flatMap (·.primary) ++ outputs.flatMap (·.derived))) :
      rangeFor rules (layers.effectiveCaps outputs) dimension =
        (compute rules layers outputs actor).capsUsed.get? dimension := by
    refine Eq.trans ?_ (used dimension).symm
    rw [if_pos member]
    rfl
  refine ⟨used, ordered, ?_, ?_⟩
  · refine follows_values ordered fun dimension member => contributed ?_
    rw [dimensions, List.map_append]
    exact List.mem_append_left _ member
  · refine follows_values ordered fun dimension member => contributed ?_
    rw [dimensions, List.map_append]
    exact List.mem_append_right _ member

end Statline.Snapshot
