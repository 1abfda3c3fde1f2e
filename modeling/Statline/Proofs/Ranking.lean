import Mathlib.Data.List.Pairwise
import Statline.Ranking

namespace Statline

variable {α β γ : Type} {group : α → γ} {priority : α → Int64} {items other : List α}

theorem group_eq_of_mem_filter [DecidableEq γ] {value : γ} {a b : α}
    (ha : a ∈ items.filter (group · = value)) (hb : b ∈ items.filter (group · = value)) :
    group a = group b :=
  (of_decide_eq_true (List.mem_filter.mp ha).2).trans
    (of_decide_eq_true (List.mem_filter.mp hb).2).symm

/-- Items of one group differ in priority, so that ranking them leaves none of their order open. -/
def Untied (group : α → γ) (priority : α → Int64) (items : List α) : Prop :=
  items.Pairwise fun a b => group a = group b → priority a ≠ priority b

instance [DecidableEq γ] : Decidable (Untied group priority items) :=
  inferInstanceAs (Decidable (items.Pairwise _))

namespace Untied

theorem sublist (h : Untied group priority items) (sub : other.Sublist items) :
    Untied group priority other :=
  List.Pairwise.sublist sub h

theorem perm (h : Untied group priority items) (perm : items.Perm other) :
    Untied group priority other :=
  (perm.pairwise_iff fun apart same => (apart same.symm).symm).mp h

theorem pairwise_filter [DecidableEq γ] (h : Untied group priority items) (value : γ) :
    (items.filter (group · = value)).Pairwise fun a b => priority a ≠ priority b := by
  refine List.Pairwise.imp_of_mem ?_ (h.sublist List.filter_sublist)
  intro a b ha hb apart
  exact apart (group_eq_of_mem_filter ha hb)

/-- Among the items of one outer group the inner groups keep them apart. -/
theorem filter_outer [DecidableEq β] {outer : α → β}
    (h : Untied (fun item => (outer item, group item)) priority items) (value : β) :
    Untied group priority (items.filter (outer · = value)) := by
  refine List.Pairwise.imp_of_mem ?_ (h.sublist List.filter_sublist)
  intro a b ha hb apart same
  have together : outer a = outer b := group_eq_of_mem_filter ha hb
  exact apart (Prod.ext together same)

end Untied

/-- Where all priorities differ, the items have a single descending order. -/
theorem eq_of_descending (apart : items.Pairwise fun a b => priority a ≠ priority b)
    {left right : List α} (hl : left.Perm items) (hr : right.Perm items)
    (descending : left.Pairwise fun a b => priority b ≤ priority a)
    (descending' : right.Pairwise fun a b => priority b ≤ priority a) : left = right := by
  have : Std.Symm fun a b : α => priority a ≠ priority b := ⟨fun _ _ => Ne.symm⟩
  refine (hl.trans hr.symm).eq_of_pairwise (fun a b ha hb ge le => ?_) descending descending'
  by_contra different
  refine apart.forall (hl.mem_iff.mp ha) (hr.mem_iff.mp hb) different ?_
  rw [Int64.le_iff_toInt_le] at ge le
  exact Int64.toInt_inj.mp (by omega)

theorem ranked_eq_of_perm (perm : items.Perm other)
    (apart : items.Pairwise fun a b => priority a ≠ priority b) :
    ranked priority items = ranked priority other :=
  eq_of_descending apart (ranked_perm priority items)
    ((ranked_perm priority other).trans perm.symm)
    (ranked_pairwise priority items) (ranked_pairwise priority other)

/-- The items of one group are ranked alike, even where the groups are tied with each other. -/
theorem filter_ranked_eq_of_perm [DecidableEq γ] (untied : Untied group priority items)
    (perm : items.Perm other) (value : γ) :
    (ranked priority items).filter (group · = value) =
      (ranked priority other).filter (group · = value) :=
  eq_of_descending (untied.pairwise_filter value) ((ranked_perm priority items).filter _)
    (((ranked_perm priority other).trans perm.symm).filter _)
    ((ranked_pairwise priority items).filter _) ((ranked_pairwise priority other).filter _)

/-- A first item goes behind those that rank above it and before all others. -/
theorem ranked_cons (priority : α → Int64) (item : α) (rest : List α) :
    let above := (ranked priority rest).filter fun other => priority item < priority other
    let others := (ranked priority rest).filter fun other => priority other ≤ priority item
    ranked priority (item :: rest) = above ++ item :: others ∧
      ranked priority rest = above ++ others := by
  obtain ⟨before, behind, whole, split, apart⟩ :=
    List.mergeSort_cons (ranks_trans priority) (ranks_total priority) item rest
  have sorted := ranked_pairwise priority (item :: rest)
  rw [ranked, whole] at sorted
  have above : ∀ other ∈ before, ¬priority other ≤ priority item := by simpa using apart
  have below := (List.pairwise_cons.mp (List.pairwise_append.mp sorted).2.1).1
  have first :
      (before ++ behind).filter (fun other => priority item < priority other) = before := by
    rw [List.filter_append, List.filter_eq_self.mpr, List.filter_eq_nil_iff.mpr, List.append_nil]
    · exact fun other member => by simpa using below other member
    · exact fun other member => by simpa using above other member
  have last : (before ++ behind).filter (fun other => priority other ≤ priority item) = behind := by
    rw [List.filter_append, List.filter_eq_nil_iff.mpr, List.filter_eq_self.mpr, List.nil_append]
    · exact fun other member => by simpa using below other member
    · exact fun other member => by simpa using above other member
  have split : ranked priority rest = before ++ behind := split
  simp only [split, first, last]
  exact ⟨whole, trivial⟩

/-- Ranking is stable: it makes no difference whether items are left out before it or after it. -/
theorem ranked_filter (priority : α → Int64) (keep : α → Bool) (items : List α) :
    ranked priority (items.filter keep) = (ranked priority items).filter keep := by
  induction items with
  | nil => simp [ranked]
  | cons item rest ih =>
    obtain ⟨whole, split⟩ := ranked_cons priority item rest
    rw [whole, List.filter_append, List.filter_cons, List.filter_cons]
    split
    next =>
      rw [(ranked_cons priority item (rest.filter keep)).1, ih]
      simp only [List.filter_filter, Bool.and_comm]
    next =>
      rw [ih, ← List.filter_append, ← split]

theorem ranked_map (f : β → α) (items : List β) :
    ranked priority (items.map f) = (ranked (fun item => priority (f item)) items).map f := by
  symm
  apply List.map_mergeSort
  exact fun _ _ _ _ => rfl

/-- The items by descending priority, those of one priority in the order in which they came. -/
structure Arranged (priority : α → Int64) (items arranged : List α) : Prop where
  descending : arranged.Pairwise fun a b => priority b ≤ priority a
  stable : ∀ rank, arranged.filter (priority · = rank) = items.filter (priority · = rank)

theorem arranged_ranked (priority : α → Int64) (items : List α) :
    Arranged priority items (ranked priority items) where
  descending := ranked_pairwise priority items
  stable rank := by
    rw [← ranked_filter]
    refine ranked_of_pairwise (List.pairwise_of_forall_mem_list fun a ha b hb => ?_)
    exact Int64.le_of_eq (group_eq_of_mem_filter hb ha)

namespace Arranged

variable {arranged again rest : List α} {item : α}

theorem mem_iff (h : Arranged priority items arranged) : item ∈ arranged ↔ item ∈ items := by
  have same : item ∈ arranged.filter (priority · = priority item) ↔
      item ∈ items.filter (priority · = priority item) := by
    rw [h.stable]
  simpa using same

theorem le_head {first : α} {behind : List α} (h : Arranged priority items (first :: behind))
    (member : item ∈ items) : priority item ≤ priority first := by
  rcases List.mem_cons.mp (h.mem_iff.mpr member) with rfl | later
  · exact Int64.le_refl _
  · exact (List.pairwise_cons.mp h.descending).1 item later

/-- Of the items of highest priority the one that came first stands first. -/
theorem head_eq {first : α} {behind : List α} (h : Arranged priority items (item :: rest))
    (h' : Arranged priority items (first :: behind)) : item = first := by
  have tied : priority item = priority first :=
    Int64.le_antisymm (h'.le_head (h.mem_iff.mp List.mem_cons_self))
      (h.le_head (h'.mem_iff.mp List.mem_cons_self))
  have same := (h.stable (priority item)).trans (h'.stable (priority item)).symm
  simp only [List.filter_cons, tied, decide_true, if_true] at same
  exact (List.cons.inj same).1

/-- The order is settled by the priorities and by what came first. -/
theorem unique (h : Arranged priority items arranged) (h' : Arranged priority items again) :
    arranged = again := by
  induction arranged generalizing items again with
  | nil =>
    refine (List.eq_nil_iff_forall_not_mem.mpr fun item member => ?_).symm
    exact List.not_mem_nil (h.mem_iff.mpr (h'.mem_iff.mp member))
  | cons item rest ih =>
    cases again with
    | nil => exact absurd (h'.mem_iff.mpr (h.mem_iff.mp List.mem_cons_self)) List.not_mem_nil
    | cons first behind =>
      obtain rfl := h.head_eq h'
      have tail : Arranged priority rest rest :=
        ⟨(List.pairwise_cons.mp h.descending).2, fun _ => rfl⟩
      have tail' : Arranged priority rest behind := by
        refine ⟨(List.pairwise_cons.mp h'.descending).2, fun rank => ?_⟩
        have same := (h.stable rank).trans (h'.stable rank).symm
        simp only [List.filter_cons] at same
        split at same
        next => exact (List.cons.inj same).2.symm
        next => exact same.symm
      exact congrArg (item :: ·) (ih tail tail')

theorem eq_ranked (h : Arranged priority items arranged) : arranged = ranked priority items :=
  h.unique (arranged_ranked priority items)

end Arranged

section numbered

variable {number : α → Nat} {arranged : List α}

/-- Items whose numbers ascend have no other order by their numbers. -/
theorem eq_of_ascending (ascending : items.Pairwise fun a b => number a < number b)
    (perm : other.Perm items) (sorted : other.Pairwise fun a b => number a ≤ number b) :
    other = items := by
  have : Std.Symm fun a b : α => number a ≠ number b := ⟨fun _ _ => Ne.symm⟩
  have apart : items.Pairwise fun a b => number a ≠ number b := ascending.imp Nat.ne_of_lt
  refine perm.eq_of_pairwise (fun a b ha hb le ge => ?_) sorted (ascending.imp Nat.le_of_lt)
  by_contra different
  exact apart.forall (perm.mem_iff.mp ha) hb different (Nat.le_antisymm le ge)

/-- Numbers that ascend stand for the order in which the items came. -/
theorem Arranged.of_numbers (ascending : items.Pairwise fun a b => number a < number b)
    (perm : arranged.Perm items)
    (sorted : arranged.Pairwise fun a b =>
      priority b < priority a ∨ priority a = priority b ∧ number a ≤ number b) :
    Arranged priority items arranged where
  descending := sorted.imp fun before =>
    before.elim Int64.le_of_lt fun tied => Int64.le_of_eq tied.1.symm
  stable rank := by
    refine eq_of_ascending (ascending.filter _) (perm.filter _) ?_
    refine List.Pairwise.imp_of_mem (fun ha hb before => ?_) (sorted.filter _)
    have tied := group_eq_of_mem_filter ha hb
    refine (before.resolve_left fun below => ?_).2
    exact Int64.lt_irrefl (tied ▸ below)

end numbered

/-- Of the items that are kept, nothing but the order of those of one priority is visible. -/
theorem ranked_filter_of_ties {keep : α → Bool}
    (ties : ∀ rank, other.filter (fun item => keep item && priority item = rank) =
      items.filter fun item => keep item && priority item = rank) :
    ranked priority (other.filter keep) = ranked priority (items.filter keep) := by
  have own := arranged_ranked priority (other.filter keep)
  refine Arranged.eq_ranked ⟨own.descending, fun rank => ?_⟩
  rw [own.stable, List.filter_filter, List.filter_filter]
  simpa only [Bool.and_comm] using ties rank

section between

variable (priority) (front : List α) (item : α) (back : List α)

/-- What ranks before an item that stands between two lists: an earlier one need only tie with it,
a later one has to be above it. -/
def outranking : List α :=
  front.filter (fun other => priority item ≤ priority other) ++
    back.filter fun other => priority item < priority other

/-- What ranks behind an item that stands between two lists. -/
def outranked : List α :=
  front.filter (fun other => priority other < priority item) ++
    back.filter fun other => priority other ≤ priority item

variable {priority front item back}

theorem le_of_mem_outranking {above : α} (h : above ∈ outranking priority front item back) :
    priority item ≤ priority above := by
  simp only [outranking, List.mem_append, List.mem_filter, decide_eq_true_eq] at h
  exact h.elim (·.2) (Int64.le_of_lt ·.2)

theorem le_of_mem_outranked {below : α} (h : below ∈ outranked priority front item back) :
    priority below ≤ priority item := by
  simp only [outranked, List.mem_append, List.mem_filter, decide_eq_true_eq] at h
  exact h.elim (Int64.le_of_lt ·.2) (·.2)

/-- Of the items of one priority a choice by priority keeps all or none. -/
theorem filter_rank_of_filter (keep : Int64 → Bool) (items : List α) (rank : Int64) :
    (items.filter fun other => keep (priority other)).filter (priority · = rank) =
      if keep rank then items.filter (priority · = rank) else [] := by
  split
  next kept =>
    rw [List.filter_filter]
    refine List.filter_congr fun other _ => ?_
    by_cases same : priority other = rank <;> simp [same, kept]
  next dropped =>
    refine List.filter_eq_nil_iff.mpr fun other member same => dropped ?_
    have kept := (List.mem_filter.mp member).2
    rwa [of_decide_eq_true same] at kept

theorem filter_rank_of_outranking (rank : Int64) :
    (outranking priority front item back ++ item :: outranked priority front item back).filter
      (priority · = rank) = (front ++ item :: back).filter (priority · = rank) := by
  simp only [outranking, outranked, List.filter_append, List.filter_cons,
    filter_rank_of_filter (fun other => decide (priority item ≤ other)),
    filter_rank_of_filter (fun other => decide (priority item < other)),
    filter_rank_of_filter (fun other => decide (other < priority item)),
    filter_rank_of_filter (fun other => decide (other ≤ priority item))]
  simp only [Int64.le_iff_toInt_le, Int64.lt_iff_toInt_lt, ← Int64.toInt_inj, decide_eq_true_eq]
  rcases Int.lt_trichotomy (priority item).toInt rank.toInt with above | same | below
  · simp [Int.le_of_lt above, above, Int.ne_of_lt above, Int.not_lt.mpr (Int.le_of_lt above),
      Int.not_le.mpr above]
  · simp [same]
  · simp [Int.le_of_lt below, below, Int.ne_of_gt below, Int.not_lt.mpr (Int.le_of_lt below),
      Int.not_le.mpr below]

/-- Ranking parts the others at each item. -/
theorem ranked_append_cons :
    ranked priority (front ++ item :: back) =
      ranked priority (outranking priority front item back) ++
        item :: ranked priority (outranked priority front item back) := by
  symm
  refine Arranged.eq_ranked ⟨?_, fun rank => ?_⟩
  · refine List.pairwise_append.mpr ⟨ranked_pairwise _ _, List.pairwise_cons.mpr
      ⟨fun below member => ?_, ranked_pairwise _ _⟩, fun above first other second => ?_⟩
    · exact le_of_mem_outranked ((ranked_perm priority _).mem_iff.mp member)
    · have least := le_of_mem_outranking ((ranked_perm priority _).mem_iff.mp first)
      rcases List.mem_cons.mp second with rfl | later
      · exact least
      · have most := le_of_mem_outranked ((ranked_perm priority _).mem_iff.mp later)
        exact Int64.le_trans most least
  · refine Eq.trans ?_ (filter_rank_of_outranking rank)
    simp only [List.filter_append, List.filter_cons, (arranged_ranked priority _).stable]

/-- The first of the items of highest priority stands at the head. -/
theorem ranked_of_first_highest (before : ∀ other ∈ front, priority other < priority item)
    (after : ∀ other ∈ back, priority other ≤ priority item) :
    ranked priority (front ++ item :: back) = item :: ranked priority (front ++ back) := by
  have above : outranking priority front item back = [] := by
    rw [outranking, List.filter_eq_nil_iff.mpr, List.filter_eq_nil_iff.mpr, List.append_nil]
    · exact fun other member => by simpa using after other member
    · exact fun other member => by simpa using before other member
  have below : outranked priority front item back = front ++ back := by
    rw [outranked, List.filter_eq_self.mpr, List.filter_eq_self.mpr]
    · exact fun other member => by simpa using after other member
    · exact fun other member => by simpa using before other member
  rw [ranked_append_cons, above, below, ranked_of_pairwise .nil, List.nil_append]

variable {P : α → Prop}

/-- Where some items are as `P` asks, one of them is the first of those of highest key. -/
theorem exists_first_highest (key : α → Int) (h : ∃ item ∈ items, P item) :
    ∃ front item back, items = front ++ item :: back ∧ P item ∧
      (∀ other ∈ front, P other → key other < key item) ∧
      ∀ other ∈ back, P other → key other ≤ key item := by
  induction items with
  | nil => simp at h
  | cons first rest ih =>
    by_cases later : ∃ item ∈ rest, P item
    · obtain ⟨front, item, back, rfl, holds, before, after⟩ := ih later
      by_cases top : P first ∧ key item ≤ key first
      · refine ⟨[], first, front ++ item :: back, rfl, top.1, nofun, fun other member asked => ?_⟩
        have most : key other ≤ key item := by
          rcases List.mem_append.mp member with member | member
          · exact Int.le_of_lt (before other member asked)
          · rcases List.mem_cons.mp member with rfl | member
            · exact Int.le_refl _
            · exact after other member asked
        exact Int.le_trans most top.2
      · refine ⟨first :: front, item, back, rfl, holds, fun other member asked => ?_, after⟩
        rcases List.mem_cons.mp member with rfl | member
        · exact Int.not_le.mp fun above => top ⟨asked, above⟩
        · exact before other member asked
    · have alone : P first := by
        obtain ⟨item, member, holds⟩ := h
        rcases List.mem_cons.mp member with rfl | member
        · exact holds
        · exact absurd ⟨item, member, holds⟩ later
      exact ⟨[], first, rest, rfl, alone, nofun,
        fun other member asked => absurd ⟨other, member, asked⟩ later⟩

theorem exists_last_lowest (key : α → Int) (h : ∃ item ∈ items, P item) :
    ∃ front item back, items = front ++ item :: back ∧ P item ∧
      (∀ other ∈ front, P other → key item ≤ key other) ∧
      ∀ other ∈ back, P other → key item < key other := by
  have reversed : ∃ item ∈ items.reverse, P item := by simpa using h
  obtain ⟨front, item, back, split, holds, before, after⟩ :=
    exists_first_highest (fun item => -key item) reversed
  refine ⟨back.reverse, item, front.reverse, ?_, holds, fun other member asked => ?_,
    fun other member asked => ?_⟩
  · rw [← List.reverse_reverse items, split]
    simp
  · exact Int.neg_le_neg_iff.mp (after other (List.mem_reverse.mp member) asked)
  · exact Int.neg_lt_neg_iff.mp (before other (List.mem_reverse.mp member) asked)

end between

end Statline
