import Statline.Bucket.Pipeline
import Statline.Proofs.Ranking

namespace Statline

namespace Bucket

variable {contributions others : List Contribution} {bucket : Bucket} {buckets : List Bucket}
  {arranged : List Contribution} {value result : Float}

/-- What a running value becomes when buckets act on it one after another. A bucket that has
contributions acts with the values of all of them, by descending priority and as they came where
priorities are equal; one that has none does not act. -/
inductive Staged (contributions : List Contribution) : List Bucket → Float → Float → Prop
  | done {value : Float} : Staged contributions [] value value
  | idle {bucket : Bucket} {rest : List Bucket} {value result : Float} :
      (∀ c ∈ contributions, c.bucket ≠ bucket) → Staged contributions rest value result →
      Staged contributions (bucket :: rest) value result
  | act {bucket : Bucket} {rest : List Bucket} {arranged : List Contribution}
      {value result : Float} :
      (∃ c ∈ contributions, c.bucket = bucket) →
      Arranged Contribution.priority (contributions.filter (·.bucket = bucket)) arranged →
      Staged contributions rest (bucket.apply value (arranged.map (·.value))) result →
      Staged contributions (bucket :: rest) value result

/-- The turn of one bucket. -/
def turn (contributions : List Contribution) (value : Float) (bucket : Bucket) : Float :=
  match valuesIn (ranked Contribution.priority contributions) bucket with
  | [] => value
  | values => bucket.apply value values

theorem combine_eq_foldl (contributions : List Contribution) :
    combine contributions = all.foldl (turn contributions) 0.0 := by
  rw [combine, stages, List.foldl_filterMap]
  congr
  funext value bucket
  rw [turn]
  cases valuesIn (ranked Contribution.priority contributions) bucket <;> rfl

/-- It makes no difference whether the contributions are ranked before or after they are told apart
by their buckets. -/
theorem valuesIn_ranked (contributions : List Contribution) (bucket : Bucket) :
    valuesIn (ranked Contribution.priority contributions) bucket =
      (ranked Contribution.priority (contributions.filter (·.bucket = bucket))).map (·.value) := by
  rw [valuesIn, ranked_filter]

theorem turn_of_idle (h : ∀ c ∈ contributions, c.bucket ≠ bucket) (value : Float) :
    turn contributions value bucket = value := by
  have empty : contributions.filter (·.bucket = bucket) = [] :=
    List.filter_eq_nil_iff.mpr fun c member => by simpa using h c member
  rw [turn, valuesIn_ranked, empty]
  simp [ranked]

theorem turn_of_arranged (filled : ∃ c ∈ contributions, c.bucket = bucket)
    (h : Arranged Contribution.priority (contributions.filter (·.bucket = bucket)) arranged)
    (value : Float) :
    turn contributions value bucket = bucket.apply value (arranged.map (·.value)) := by
  rw [turn, valuesIn_ranked, ← h.eq_ranked]
  cases arranged with
  | nil =>
    obtain ⟨c, member, same⟩ := filled
    exact absurd (h.mem_iff.mpr (List.mem_filter.mpr ⟨member, by simpa using same⟩))
      List.not_mem_nil
  | cons => rfl

theorem Staged.foldl_turn (h : Staged contributions buckets value result) :
    buckets.foldl (turn contributions) value = result := by
  induction h with
  | done => rfl
  | idle empty _ ih => rw [List.foldl_cons, turn_of_idle empty, ih]
  | act filled arranged _ ih => rw [List.foldl_cons, turn_of_arranged filled arranged, ih]

theorem staged_foldl_turn (contributions : List Contribution) (buckets : List Bucket)
    (value : Float) :
    Staged contributions buckets value (buckets.foldl (turn contributions) value) := by
  induction buckets generalizing value with
  | nil => exact .done
  | cons bucket rest ih =>
    rw [List.foldl_cons]
    by_cases filled : ∃ c ∈ contributions, c.bucket = bucket
    · have own := arranged_ranked Contribution.priority
        (contributions.filter (·.bucket = bucket))
      refine .act filled own ?_
      rw [← turn_of_arranged filled own]
      exact ih _
    · have empty : ∀ c ∈ contributions, c.bucket ≠ bucket := fun c member same =>
        filled ⟨c, member, same⟩
      refine .idle empty ?_
      rw [turn_of_idle empty]
      exact ih value

theorem staged_iff : Staged contributions all 0.0 result ↔ combine contributions = result := by
  rw [combine_eq_foldl]
  constructor
  · exact Staged.foldl_turn
  · rintro rfl
    exact staged_foldl_turn contributions all 0.0

theorem turn_congr
    (ties : ∀ rank, others.filter (fun c => c.bucket = bucket ∧ c.priority = rank) =
      contributions.filter fun c => c.bucket = bucket ∧ c.priority = rank) (value : Float) :
    turn others value bucket = turn contributions value bucket := by
  have same : ranked Contribution.priority (others.filter (·.bucket = bucket)) =
      ranked Contribution.priority (contributions.filter (·.bucket = bucket)) :=
    ranked_filter_of_ties (by simpa only [Bool.decide_and] using ties)
  rw [turn, turn, valuesIn_ranked, valuesIn_ranked, same]

/-- The buckets act in their order, each with its own contributions by descending priority; so it
makes no difference in which order contributions arrive, but for those to one bucket with one
priority. -/
theorem combine_iff_staged (contributions : List Contribution) :
    (∀ result, combine contributions = result ↔
      Staged contributions [.flat, .mult, .postAdd, .override, .exponential, .logarithmic,
        .conditional] 0.0 result) ∧
    ∀ others, others.Perm contributions →
      (∀ bucket rank, others.filter (fun c => c.bucket = bucket ∧ c.priority = rank) =
        contributions.filter fun c => c.bucket = bucket ∧ c.priority = rank) →
      combine others = combine contributions := by
  refine ⟨fun result => staged_iff.symm, fun others _ ties => ?_⟩
  have turns : turn others = turn contributions :=
    funext fun value => funext fun bucket => turn_congr (ties bucket) value
  rw [combine_eq_foldl, combine_eq_foldl, turns]

end Bucket

end Statline
