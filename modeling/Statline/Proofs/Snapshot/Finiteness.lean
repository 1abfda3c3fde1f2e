import Statline.Proofs.Snapshot.Accounting

namespace Statline.Snapshot

/-- Every value and every bound is a finite number. -/
structure Finite (snapshot : Snapshot) : Prop where
  primary : snapshot.primary.Every fun _ value => value.isFinite = true
  derived : snapshot.derived.Every fun _ value => value.isFinite = true
  capsUsed : snapshot.capsUsed.Every fun _ range => range.Bounds (·.isFinite = true)

variable {rules : RuleBook} {effective : Table Caps} {outputs : List Output} {snapshot : Snapshot}

theorem Follows.every_finite {used : Table Caps} {contributions : List Contribution}
    {values : Table Float} (h : Follows rules used contributions values)
    (finite : used.Every fun _ range => range.Bounds (·.isFinite = true)) :
    values.Every fun _ value => value.isFinite = true := by
  intro dimension value held
  by_cases member : dimension ∈ dimensions contributions
  · cases bounded : used.get? dimension with
    | some range =>
      obtain ⟨clamped, same, _, above, below⟩ := h.clamped dimension member range bounded
      cases same.symm.trans held
      have bounds := finite dimension range bounded
      exact Double.isFinite_of_le_of_le bounds.min bounds.max above below
    | none =>
      rw [h.unclamped dimension member bounded] at held
      obtain ⟨number, rfl⟩ := Option.ite_some_none_eq_some.mp held
      exact number
  · cases (h.absent dimension member).symm.trans held

/-- Nothing but a bound of the effective caps can bring in a number that is not finite. -/
theorem Accounts.finite_iff (h : Accounts rules effective outputs snapshot)
    (valid : rules.validate = .ok ()) :
    snapshot.Finite ↔ effective.Every fun _ range => range.Bounds (·.isFinite = true) := by
  constructor
  · intro finite dimension range capped
    refine finite.capsUsed dimension range ?_
    rw [h.used, capped, Option.some_or]
  · intro finite
    have used : snapshot.capsUsed.Every fun _ range => range.Bounds (·.isFinite = true) := by
      intro dimension range held
      rcases Option.or_eq_some_iff.mp ((h.used dimension).symm.trans held) with capped | ⟨_, spare⟩
      · exact finite dimension range capped
      · split at spare
        next => exact Caps.bounds_of_isValid (isValid_of_clampDefault valid spare)
        next => cases spare
    exact ⟨h.primary.every_finite used, h.derived.every_finite used, used⟩

end Statline.Snapshot
