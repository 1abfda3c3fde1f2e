import Statline.Proofs.Caps.Containment
import Statline.Proofs.Ranking

namespace Statline

namespace CapContribution

/-- The cap is on the dimension, within the layer. -/
def isOn (layer : Layer) (dimension : String) (cap : CapContribution) : Bool :=
  cap.scope = layer && cap.dimension = dimension

/-- The cap sets both bounds, whatever they were. -/
def Resets (cap : CapContribution) : Prop :=
  cap.mode = .baseline ∨ cap.mode = .override

theorem Resets.apply {cap : CapContribution} (h : cap.Resets) (range : Caps) :
    range.apply cap.mode cap.value = Caps.fixed cap.value := by
  rcases h with mode | mode <;> rw [mode] <;> rfl

/-- A cap that sets both bounds may as well be the first. -/
theorem fold_append_of_resets {reset : CapContribution} (h : reset.Resets)
    (before after : List CapContribution) :
    fold (before ++ reset :: after) = fold (reset :: after) := by
  cases before with
  | nil => rfl
  | cons first rest =>
    rw [List.cons_append, fold, fold, List.foldl_append, List.foldl_cons, h.apply]

end CapContribution

namespace Layer

variable {layer : Layer} {dimension : String} {contributions others : List CapContribution}
  {front back : List CapContribution} {reset : CapContribution}

/-- The caps on a dimension within a layer, as they came. -/
def capsOn (layer : Layer) (dimension : String) (contributions : List CapContribution) :
    List CapContribution :=
  contributions.filter (·.isOn layer dimension)

theorem capsOn_append_cons (own : reset.isOn layer dimension = true)
    (front back : List CapContribution) :
    layer.capsOn dimension (front ++ reset :: back) =
      layer.capsOn dimension front ++ reset :: layer.capsOn dimension back := by
  rw [capsOn, List.filter_append, List.filter_cons, if_pos own]
  rfl

theorem get?_caps_eq_capsOn (layer : Layer) (contributions : List CapContribution)
    (dimension : String) :
    (layer.caps contributions).get? dimension =
      (CapContribution.fold (ranked CapContribution.priority
        (layer.capsOn dimension contributions))).map Caps.normalized := by
  have own : (contributions.filter (·.scope = layer)).filter (·.dimension = dimension) =
      layer.capsOn dimension contributions := by
    rw [List.filter_filter]
    exact List.filter_congr fun cap _ => Bool.and_comm _ _
  rw [get?_caps, own]

theorem get?_caps_of_ties
    (ties : ∀ rank, others.filter (fun cap => cap.isOn layer dimension && cap.priority = rank) =
      contributions.filter fun cap => cap.isOn layer dimension && cap.priority = rank) :
    (layer.caps others).get? dimension = (layer.caps contributions).get? dimension := by
  rw [get?_caps_eq_capsOn, get?_caps_eq_capsOn, capsOn, capsOn, ranked_filter_of_ties ties]

/-- What is left when the caps on a dimension that rank before one of them, which stands between
the two lists, are taken out. -/
def since (layer : Layer) (dimension : String) (front : List CapContribution)
    (reset : CapContribution) (back : List CapContribution) : List CapContribution :=
  front.filter (fun cap => !(cap.isOn layer dimension && reset.priority ≤ cap.priority)) ++
    reset :: back.filter fun cap => !(cap.isOn layer dimension && reset.priority < cap.priority)

/-- Between the two lists stands the last cap, by descending priority and as they came, that sets
the bounds of a dimension within a layer. -/
structure LastReset (layer : Layer) (dimension : String) (front : List CapContribution)
    (reset : CapContribution) (back : List CapContribution) : Prop where
  own : reset.isOn layer dimension = true
  resets : reset.Resets
  front : ∀ cap ∈ front, cap.isOn layer dimension = true ∧ cap.Resets →
    reset.priority ≤ cap.priority
  back : ∀ cap ∈ back, cap.isOn layer dimension = true ∧ cap.Resets →
    reset.priority < cap.priority

theorem exists_lastReset
    (h : ∃ cap ∈ contributions, cap.isOn layer dimension = true ∧ cap.Resets) :
    ∃ front reset back, contributions = front ++ reset :: back ∧
      LastReset layer dimension front reset back := by
  obtain ⟨front, reset, back, split, ⟨own, resets⟩, before, after⟩ :=
    exists_last_lowest (fun cap : CapContribution => cap.priority.toInt) h
  refine ⟨front, reset, back, split, own, resets, ?_, ?_⟩
  · exact fun cap member asked => Int64.le_iff_toInt_le.mpr (before cap member asked)
  · exact fun cap member asked => Int64.lt_iff_toInt_lt.mpr (after cap member asked)

theorem capsOn_since (own : reset.isOn layer dimension = true)
    (front back : List CapContribution) :
    layer.capsOn dimension (since layer dimension front reset back) =
      (layer.capsOn dimension front).filter (fun cap => cap.priority < reset.priority) ++
        reset :: (layer.capsOn dimension back).filter fun cap => cap.priority ≤ reset.priority := by
  have below : ∀ cap : CapContribution, (cap.isOn layer dimension &&
      !(cap.isOn layer dimension && reset.priority ≤ cap.priority)) =
        (cap.priority < reset.priority && cap.isOn layer dimension) := by
    intro cap
    cases cap.isOn layer dimension <;> simp [← Int64.not_le]
  have notAbove : ∀ cap : CapContribution, (cap.isOn layer dimension &&
      !(cap.isOn layer dimension && reset.priority < cap.priority)) =
        (cap.priority ≤ reset.priority && cap.isOn layer dimension) := by
    intro cap
    cases cap.isOn layer dimension <;> simp [← Int64.not_lt]
  rw [since, capsOn_append_cons own]
  simp only [capsOn, List.filter_filter, below, notAbove]

/-- Those that rank before a cap that sets both bounds make no difference. -/
theorem get?_caps_since (own : reset.isOn layer dimension = true) (resets : reset.Resets)
    (front back : List CapContribution) :
    (layer.caps (since layer dimension front reset back)).get? dimension =
      (layer.caps (front ++ reset :: back)).get? dimension := by
  have tail : ranked CapContribution.priority
      (layer.capsOn dimension (since layer dimension front reset back)) =
      reset :: ranked CapContribution.priority (outranked CapContribution.priority
        (layer.capsOn dimension front) reset (layer.capsOn dimension back)) := by
    rw [capsOn_since own, ranked_of_first_highest]
    · rfl
    · exact fun cap member => of_decide_eq_true (List.mem_filter.mp member).2
    · exact fun cap member => of_decide_eq_true (List.mem_filter.mp member).2
  rw [get?_caps_eq_capsOn, get?_caps_eq_capsOn, tail, capsOn_append_cons own, ranked_append_cons,
    CapContribution.fold_append_of_resets resets]

/-- A layer caps a dimension if it holds a cap on it. The range is a matter of these caps alone, and
of their order only where they are tied; and if some of them set both bounds, it is a matter of
the last of those and of what ranks behind it. -/
theorem caps_since_last_reset (layer : Layer) (contributions : List CapContribution)
    (dimension : String) :
    ((layer.caps contributions).contains dimension = true ↔
      ∃ cap ∈ contributions, cap.scope = layer ∧ cap.dimension = dimension) ∧
    (∀ others, others.Perm contributions →
      (∀ scope name rank,
        others.filter (fun c => c.scope = scope ∧ c.dimension = name ∧ c.priority = rank) =
          contributions.filter fun c =>
            c.scope = scope ∧ c.dimension = name ∧ c.priority = rank) →
      (layer.caps others).get? dimension = (layer.caps contributions).get? dimension) ∧
    (∀ others, layer.capsOn dimension others = layer.capsOn dimension contributions →
      (layer.caps others).get? dimension = (layer.caps contributions).get? dimension) ∧
    ((∃ cap ∈ contributions, cap.isOn layer dimension = true ∧ cap.Resets) →
      ∃ front reset back, contributions = front ++ reset :: back ∧
        LastReset layer dimension front reset back) ∧
    ∀ front reset back, contributions = front ++ reset :: back →
      LastReset layer dimension front reset back →
      (layer.caps (since layer dimension front reset back)).get? dimension =
        (layer.caps contributions).get? dimension := by
  refine ⟨layer.isSome_get?_caps contributions dimension, fun others _ ties => ?_,
    fun others own => ?_, exists_lastReset, ?_⟩
  · refine get?_caps_of_ties fun rank => ?_
    simpa only [CapContribution.isOn, Bool.decide_and, Bool.and_assoc] using
      ties layer dimension rank
  · rw [get?_caps_eq_capsOn, get?_caps_eq_capsOn, own]
  · rintro front reset back rfl last
    exact get?_caps_since last.own last.resets front back

end Layer

end Statline
