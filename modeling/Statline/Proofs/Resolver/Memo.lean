import Statline.Proofs.Resolver.Changes
import Statline.Proofs.Resolver.SingleStat

namespace Statline.Resolver

variable {resolver : Resolver} {primary : PrimaryStats} {name : String} {value : Float}

theorem resolveStat_of_not_mem (h : name ∉ resolver.sheet.names) :
    resolver.resolveStat name primary = (.error (.unknownFormula name), resolver) := by
  have unknown : resolver.sheet.contains name = false :=
    Bool.eq_false_iff.mpr (mt FormulaSheet.contains_eq_true.mp h)
  simp [resolveStat, unknown]

/-- Nothing that is in the memo shows in an answer. -/
theorem Faithful.resolveStat_clearMemo (h : resolver.Faithful) (name : String)
    (primary : PrimaryStats) :
    (resolver.clearMemo.resolveStat name primary).1 = (resolver.resolveStat name primary).1 := by
  by_cases registered : name ∈ resolver.sheet.names
  · have forgotten : resolver.clearMemo.Faithful := .forget resolver _ _
    exact (forgotten.resolveStat_eq registered).trans (h.resolveStat_eq registered).symm
  · have unknown : name ∉ resolver.clearMemo.sheet.names := registered
    rw [resolveStat_of_not_mem registered, resolveStat_of_not_mem unknown]

theorem getElem?_remember (resolver : Resolver) (key : MemoKey) (value : Float) :
    (resolver.remember key value).memo[key]? = some value := by
  simp [remember]

theorem resolveStat_of_known (known : resolver.memo[resolver.memoKey name primary]? = some value) :
    (resolver.resolveStat name primary).2 = resolver := by
  unfold resolveStat
  split
  next => rfl
  next => simp only [known]

theorem memo_of_resolveStat (h : (resolver.resolveStat name primary).1 = .ok value) :
    (resolver.resolveStat name primary).2.memo[resolver.memoKey name primary]? = some value := by
  unfold resolveStat at h ⊢
  split at h
  next => cases h
  next registered =>
    rw [if_neg registered]
    dsimp only at h ⊢
    split at h
    next known => cases h; exact known
    next =>
      split at h
      next => cases h; exact getElem?_remember resolver _ _
      next => cases h

theorem size_memo_remember (resolver : Resolver) (key : MemoKey) (value : Float) :
    (resolver.remember key value).memo.size ≤ memoLimit := by
  have room : (if memoLimit ≤ resolver.memo.size then {} else resolver.memo).size < memoLimit := by
    split
    next => simp [memoLimit]
    next below => exact Nat.lt_of_not_le below
  exact Nat.le_trans Std.HashMap.size_insert_le room

theorem memo_of_adopt {staged : FormulaSheet} {next : Resolver}
    (h : resolver.adopt staged = .ok next) : next.memo = ∅ := by
  obtain ⟨_, _, rfl⟩ := adopt_eq_ok h
  rfl

theorem size_memo_call (h : resolver.memo.size ≤ memoLimit) (made : Call) :
    (resolver.call made).memo.size ≤ memoLimit := by
  rcases call_cases resolver made with ⟨staged, _, adopted⟩ | kept
  · rw [memo_of_adopt adopted]
    exact Nat.zero_le _
  · generalize resolver.call made = next at kept
    cases kept with
    | bounds => exact h
    | forget => exact Nat.zero_le _
    | remember => exact size_memo_remember resolver _ _

theorem size_memo_after (calls : List Call) : (after calls).memo.size ≤ memoLimit :=
  List.foldlRecOn (motive := fun resolver => resolver.memo.size ≤ memoLimit) calls call
    (Nat.zero_le _) fun _ bounded made _ => size_memo_call bounded made

/-- A change that is accepted leaves no value of the formulas before it. -/
theorem memo_of_accepts {made : Call} (h : resolver.accepts made = true) :
    (resolver.call made).memo = ∅ := by
  rcases call_cases resolver made with ⟨staged, _, adopted⟩ | kept
  · exact memo_of_adopt adopted
  · -- what keeps the formulas keeps the version, which an accepted change raises
    have same := version_of_keeps kept
    rw [version_call, if_pos h] at same
    omega

/-- Whatever calls came before, emptying the memo changes no answer. The memo has a limit, it takes
each value that is computed, a request that fails or finds its value leaves it alone, and a change
of the formulas empties it if it is accepted and leaves all as it was if it is refused. -/
theorem memo_after_calls (calls : List Call) :
    (∀ name primary, ((after calls).resolveStat name primary).1 =
      ((after calls).clearMemo.resolveStat name primary).1) ∧
    (after calls).clearMemo.memo = ∅ ∧
    (after calls).memo.size ≤ 4096 ∧
    (∀ name primary fault, ((after calls).resolveStat name primary).1 = .error fault →
      ((after calls).resolveStat name primary).2 = after calls) ∧
    (∀ name primary value, (after calls).memo[(after calls).memoKey name primary]? = some value →
      ((after calls).resolveStat name primary).2 = after calls) ∧
    (∀ name primary value, ((after calls).resolveStat name primary).1 = .ok value →
      ((after calls).resolveStat name primary).2.memo[(after calls).memoKey name primary]? =
        some value) ∧
    (∀ made, (after calls).accepts made = true → ((after calls).call made).memo = ∅) ∧
    ∀ made fault, (after calls).outcome made = .error fault →
      (after calls).call made = after calls := by
  have faithful := faithful_after calls
  refine ⟨?_, rfl, size_memo_after calls, ?_, ?_, ?_, ?_, ?_⟩
  · exact fun name primary => (faithful.resolveStat_clearMemo name primary).symm
  · exact fun name primary fault failed => resolveStat_of_error failed
  · exact fun name primary value known => resolveStat_of_known known
  · exact fun name primary value answered => memo_of_resolveStat answered
  · exact fun made accepted => memo_of_accepts accepted
  · exact fun made fault refused => call_of_outcome_error refused

end Statline.Resolver
