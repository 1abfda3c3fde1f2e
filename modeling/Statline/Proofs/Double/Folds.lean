import Statline.Proofs.Double.Nearest

namespace Statline.Double

open Float.Model Float.Model.UnpackedFloat

/-- Whether a double stands for just this number. -/
def Representable (q : ℚ) : Prop :=
  ∃ z : Float, z.isFinite = true ∧ toRat z = q

theorem representable_of_canonical {sign : Sign} {mantissa : Nat} {exponent : Int}
    (h : Canonical mantissa exponent) (positive : 0 < mantissa) :
    Representable (sign.apply mantissa * 2 ^ exponent) := by
  have unpacked : (Float.Model.pack (.finite sign mantissa exponent positive)).unpack =
      .finite sign mantissa exponent positive := h.unpack_pack
  refine ⟨.ofModel (.pack (.finite sign mantissa exponent positive)), ?_, ?_⟩
  · exact congrArg UnpackedFloat.isFinite unpacked
  · exact congrArg value unpacked

/-- Every whole number of up to 53 bits is a double. -/
theorem representable_intCast {n : ℤ} (h : |n| < 2 ^ 53) : Representable n := by
  rcases eq_or_ne n 0 with rfl | nonzero
  · exact ⟨0.0, rfl, rfl⟩
  obtain ⟨sign, mantissa, positive, rfl⟩ := exists_apply nonzero
  have bits : mantissa < 2 ^ 53 := by
    cases sign <;> simpa [Sign.apply] using h
  have long : mantissa.log2 < 53 := (Nat.log2_lt positive.ne').mpr bits
  obtain ⟨amount, digits⟩ := Nat.exists_eq_add_of_le (Nat.le_of_lt_succ long)
  have scaled : 0 < mantissa * 2 ^ amount := Nat.mul_pos positive (Nat.two_pow_pos amount)
  have canonical : Canonical (mantissa * 2 ^ amount) (-amount) := by
    have log := log2_mul_two_pow positive amount
    refine ⟨(Nat.log2_lt scaled.ne').mp (by omega), by omega, by omega, .inr ?_⟩
    exact (Nat.le_log2 scaled.ne').mp (by omega)
  have same : ((sign.apply (mantissa * 2 ^ amount : Nat) : ℤ) : ℚ) * 2 ^ (-(amount : ℤ)) =
      sign.apply mantissa := by
    rw [apply_mul_two_pow, zpow_neg, zpow_natCast]
    push_cast
    field_simp
  rw [← same]
  exact representable_of_canonical canonical scaled

/-- An operation on doubles that is exact but for one rounding. -/
def Rounds (op : Float → Float → Float) (exact : ℚ → ℚ → ℚ) : Prop :=
  ∀ x y : Float, x.isFinite = true → y.isFinite = true →
    rank (op x y) = rank (nearest (exact (toRat x) (toRat y)))

variable {op : Float → Float → Float} {exact : ℚ → ℚ → ℚ} {start : Float}
  {values others : List Float}

/-- What a fold would come to without rounding. -/
def total (exact : ℚ → ℚ → ℚ) (start : Float) (values : List Float) : ℚ :=
  (values.map toRat).foldl exact (toRat start)

theorem total_append_singleton (front : List Float) (last : Float) :
    total exact start (front ++ [last]) = exact (total exact start front) (toRat last) := by
  simp [total]

theorem total_perm [RightCommutative exact] (h : values.Perm others) :
    total exact start values = total exact start others :=
  (h.map toRat).foldl_eq (toRat start)

/-- A fold whose results are all doubles never rounds. -/
theorem foldl_exact (rounds : Rounds op exact) (hs : start.isFinite = true)
    (finite : ∀ value ∈ values, value.isFinite = true)
    (representable : ∀ part, part <+: values → Representable (total exact start part)) :
    (values.foldl op start).isFinite = true ∧
      toRat (values.foldl op start) = total exact start values := by
  induction values using List.reverseRecOn with
  | nil => exact ⟨hs, rfl⟩
  | append_singleton front last ih =>
    obtain ⟨hf, same⟩ := ih (fun value listed => finite value (List.mem_append_left _ listed))
      (fun part h => representable part (h.trans (List.prefix_append _ _)))
    have hl := finite last (by simp)
    obtain ⟨z, hz, eq⟩ := representable _ List.prefix_rfl
    rw [total_append_singleton] at eq ⊢
    have landed : rank ((front ++ [last]).foldl op start) = rank z := by
      rw [List.foldl_append, List.foldl_cons, List.foldl_nil, rounds _ _ hf hl, same, ← eq,
        rank_nearest hz]
    rw [isFinite_eq_of_rank_eq landed, toRat_eq_of_rank_eq landed]
    exact ⟨hz, eq⟩

/-- If only the last step of a fold can round, the fold comes to the double nearest to its total. -/
theorem rank_foldl (rounds : Rounds op exact) (hs : start.isFinite = true)
    (finite : ∀ value ∈ values, value.isFinite = true)
    (representable : ∀ part, part <+: values → part.length < values.length →
      Representable (total exact start part)) :
    rank (values.foldl op start) = rank (nearest (total exact start values)) := by
  rcases List.eq_nil_or_concat values with rfl | ⟨front, last, rfl⟩
  · exact (rank_nearest hs).symm
  · rw [List.concat_eq_append] at finite representable ⊢
    obtain ⟨hf, same⟩ := foldl_exact rounds hs
      (fun value listed => finite value (List.mem_append_left _ listed))
      (fun part h => representable part (h.trans (List.prefix_append _ _))
        (h.length_le.trans_lt (by simp)))
    rw [List.foldl_append, List.foldl_cons, List.foldl_nil, rounds _ _ hf (finite last (by simp)),
      same, total_append_singleton]

theorem beq_foldl_of_perm [RightCommutative exact] (rounds : Rounds op exact)
    (hs : start.isFinite = true) (finite : ∀ value ∈ values, value.isFinite = true)
    (representable : ∀ part, part.Sublist values → part.length < values.length →
      Representable (total exact start part)) (perm : values.Perm others) :
    (values.foldl op start == others.foldl op start) = true := by
  have left : rank (values.foldl op start) = rank (nearest (total exact start values)) :=
    rank_foldl rounds hs finite fun part h short => representable part h.sublist short
  have right : rank (others.foldl op start) = rank (nearest (total exact start others)) := by
    refine rank_foldl rounds hs (fun value listed => finite value (perm.mem_iff.mpr listed)) ?_
    intro part h short
    obtain ⟨arranged, same, within⟩ := h.sublist.subperm.trans perm.symm.subperm
    rw [← total_perm same]
    exact representable arranged within (by rwa [same.length_eq, perm.length_eq])
  refine beq_iff.mpr ⟨?_, ?_, ?_⟩
  · rw [isNaN_eq_of_rank_eq left, isNaN_nearest]
  · rw [isNaN_eq_of_rank_eq right, isNaN_nearest]
  · rw [left, right, total_perm perm]

theorem beq_sum_of_perm (finite : ∀ value ∈ values, value.isFinite = true)
    (representable : ∀ part : List Float, part.Sublist values → part.length < values.length →
      Representable (part.map toRat).sum) (perm : values.Perm others) :
    (sum values == sum others) = true := by
  have start : toRat (-0.0) = 0 := rfl
  refine beq_foldl_of_perm (fun _ _ => rank_add) rfl finite (fun part within short => ?_) perm
  rw [total, start, ← List.sum_eq_foldl]
  exact representable part within short

theorem beq_product_of_perm (finite : ∀ value ∈ values, value.isFinite = true)
    (representable : ∀ part : List Float, part.Sublist values → part.length < values.length →
      Representable (part.map toRat).prod) (perm : values.Perm others) :
    (product values == product others) = true := by
  have start : toRat 1.0 = 1 := by decide +kernel
  refine beq_foldl_of_perm (fun _ _ => rank_mul) rfl finite (fun part within short => ?_) perm
  rw [total, start, ← List.prod_eq_foldl]
  exact representable part within short

end Statline.Double
