namespace Statline

/-- The items by descending priority; items of one priority keep the order in which they came. -/
def ranked {α : Type} (priority : α → Int64) (items : List α) : List α :=
  items.mergeSort fun a b => decide (priority b ≤ priority a)

theorem ranked_perm {α : Type} (priority : α → Int64) (items : List α) :
    (ranked priority items).Perm items :=
  List.mergeSort_perm items _

theorem ranks_trans {α : Type} (priority : α → Int64) (a b c : α)
    (hab : decide (priority b ≤ priority a) = true)
    (hbc : decide (priority c ≤ priority b) = true) :
    decide (priority c ≤ priority a) = true := by
  simp only [decide_eq_true_eq, Int64.le_iff_toInt_le] at *
  omega

theorem ranks_total {α : Type} (priority : α → Int64) (a b : α) :
    (decide (priority b ≤ priority a) || decide (priority a ≤ priority b)) = true := by
  simp only [Bool.or_eq_true, decide_eq_true_eq, Int64.le_iff_toInt_le]
  omega

theorem ranked_pairwise {α : Type} (priority : α → Int64) (items : List α) :
    (ranked priority items).Pairwise fun a b => priority b ≤ priority a := by
  have sorted : (ranked priority items).Pairwise
      fun a b => decide (priority b ≤ priority a) = true :=
    List.pairwise_mergeSort (ranks_trans priority) (ranks_total priority) items
  refine sorted.imp ?_
  intro a b h
  exact of_decide_eq_true h

theorem ranked_of_pairwise {α : Type} {priority : α → Int64} {items : List α}
    (h : items.Pairwise fun a b => priority b ≤ priority a) : ranked priority items = items :=
  List.mergeSort_of_pairwise (h.imp decide_eq_true)

end Statline
