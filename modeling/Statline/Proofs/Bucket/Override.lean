import Statline.Proofs.Bucket.Stages

namespace Statline.Bucket

variable {contributions front back : List Contribution} {winner : Contribution} {bucket : Bucket}

/-- The buckets that act once the running value may have been replaced. -/
def isLate : Bucket → Bool
  | exponential | logarithmic | conditional => true
  | flat | mult | postAdd | override => false

/-- The contributions that act on whatever has replaced the running value. -/
def lasting (contributions : List Contribution) : List Contribution :=
  contributions.filter (·.bucket.isLate)

/-- Between the two lists stands the first of those of highest priority among the contributions
that replace the running value. -/
structure Wins (front : List Contribution) (winner : Contribution) (back : List Contribution) :
    Prop where
  bucket : winner.bucket = .override
  front : ∀ c ∈ front, c.bucket = .override → c.priority < winner.priority
  back : ∀ c ∈ back, c.bucket = .override → c.priority ≤ winner.priority

theorem exists_wins (h : ∃ c ∈ contributions, c.bucket = .override) :
    ∃ front winner back, contributions = front ++ winner :: back ∧ Wins front winner back := by
  obtain ⟨front, winner, back, split, own, before, after⟩ :=
    exists_first_highest (fun c : Contribution => c.priority.toInt) h
  refine ⟨front, winner, back, split, own, ?_, ?_⟩
  · exact fun c member same => Int64.lt_iff_toInt_lt.mpr (before c member same)
  · exact fun c member same => Int64.le_iff_toInt_le.mpr (after c member same)

theorem not_override_of_lasting {c : Contribution} (h : c ∈ lasting contributions) :
    c.bucket ≠ .override := by
  intro same
  have late := (List.mem_filter.mp h).2
  rw [same] at late
  cases late

theorem Wins.lasting (h : Wins front winner back) :
    Wins (lasting front) winner (lasting back) where
  bucket := h.bucket
  front _ member same := absurd same (not_override_of_lasting member)
  back _ member same := absurd same (not_override_of_lasting member)

/-- Whatever the running value was, it becomes that of the winner. -/
theorem Wins.turn_override (h : Wins front winner back) (value : Float) :
    turn (front ++ winner :: back) value .override = winner.value := by
  have first : ranked Contribution.priority
      ((front ++ winner :: back).filter (·.bucket = .override)) =
        winner :: ranked Contribution.priority
          (front.filter (·.bucket = .override) ++ back.filter (·.bucket = .override)) := by
    rw [List.filter_append, List.filter_cons, if_pos (decide_eq_true h.bucket)]
    refine ranked_of_first_highest (fun c member => ?_) (fun c member => ?_)
    · have own := List.mem_filter.mp member
      exact h.front c own.1 (of_decide_eq_true own.2)
    · have own := List.mem_filter.mp member
      exact h.back c own.1 (of_decide_eq_true own.2)
  rw [turn, valuesIn_ranked, first]
  rfl

theorem Wins.combine_eq (h : Wins front winner back) :
    combine (front ++ winner :: back) =
      [exponential, logarithmic, conditional].foldl (turn (front ++ winner :: back))
        winner.value := by
  rw [combine_eq_foldl, ← h.turn_override]
  rfl

theorem filter_lasting (late : bucket.isLate = true) (contributions : List Contribution) :
    (lasting contributions).filter (·.bucket = bucket) =
      contributions.filter (·.bucket = bucket) := by
  rw [lasting, List.filter_filter]
  refine List.filter_congr fun c _ => ?_
  by_cases same : c.bucket = bucket
  · simp [same, late]
  · simp [same]

theorem turn_lasting (late : bucket.isLate = true) (front back : List Contribution)
    (winner : Contribution) (value : Float) :
    turn (lasting front ++ winner :: lasting back) value bucket =
      turn (front ++ winner :: back) value bucket := by
  have own : (lasting front ++ winner :: lasting back).filter (·.bucket = bucket) =
      (front ++ winner :: back).filter (·.bucket = bucket) := by
    simp only [List.filter_append, List.filter_cons, filter_lasting late]
  rw [turn, turn, valuesIn_ranked, valuesIn_ranked, own]

/-- Where a contribution replaces the running value, it takes the first of those of highest priority
and what acts after it to know the result: whatever came before, infinite or not even a number,
and the other replacements leave no trace. -/
theorem combine_of_override (contributions : List Contribution) :
    ((∃ c ∈ contributions, c.bucket = .override) →
      ∃ front winner back, contributions = front ++ winner :: back ∧ Wins front winner back) ∧
    ∀ front winner back, contributions = front ++ winner :: back → Wins front winner back →
      combine (lasting front ++ winner :: lasting back) = combine contributions := by
  refine ⟨exists_wins, ?_⟩
  rintro front winner back rfl wins
  rw [wins.combine_eq, wins.lasting.combine_eq]
  simp only [List.foldl_cons, List.foldl_nil]
  rw [turn_lasting rfl, turn_lasting rfl, turn_lasting rfl]

/-- The flat bonuses overflow and their multiple by zero is not a number. -/
def overflowing : List Contribution :=
  let hit (bucket : Bucket) (value : Float) (priority : Int64) : Contribution :=
    ⟨"health", bucket, value, "gear", priority⟩
  [hit .flat 1e308 0, hit .flat 1e308 0, hit .exponential 0.5 0, hit .override 1 0] ++
    hit .override 20 5 :: [hit .override 30 5, hit .mult 0 9, hit .conditional 3 0]

theorem combine_overflowing :
    combine [⟨"health", .exponential, 0.5, "gear", 0⟩, ⟨"health", .override, 20, "gear", 5⟩,
      ⟨"health", .conditional, 3, "gear", 0⟩] = combine overflowing := by
  refine (combine_of_override overflowing).2 _ _ _ rfl ⟨rfl, ?_, ?_⟩
  · simp
  · simp

end Statline.Bucket
