import Statline.Proofs.Double.Canonical

namespace Statline.Double

open Float.Model Float.Model.UnpackedFloat

variable {sign : Sign} {mantissa : Nat} {exponent : Int}

theorem shiftRight_add (em : ExtendedMantissa) (a b : Nat) : em >>> (a + b) = em >>> a >>> b := by
  induction b with
  | zero => rfl
  | succ b ih => exact congrArg ExtendedMantissa.shiftRightOne ih

/-- Shifting out the zeros that a factor has put in loses nothing. -/
theorem shiftRight_mul_two_pow (mantissa amount : Nat) :
    (ExtendedMantissa.mk (mantissa * 2 ^ amount) false false) >>> amount =
      ExtendedMantissa.mk mantissa false false := by
  induction amount generalizing mantissa with
  | zero => exact congrArg (ExtendedMantissa.mk · false false) (Nat.mul_one mantissa)
  | succ amount ih =>
    have once : (ExtendedMantissa.mk (mantissa * 2) false false).shiftRightOne =
        ExtendedMantissa.mk mantissa false false := by
      simp [ExtendedMantissa.shiftRightOne]
    rw [shiftRight_add, Nat.pow_succ', ← Nat.mul_assoc, ih (mantissa * 2)]
    exact once

/-- A mantissa moved to another exponent, with a trace of the bits that this cuts off. -/
def moved (mantissa : Nat) (exponent target : Int) : ExtendedMantissa :=
  (ExtendedMantissa.mk (mantissa * 2 ^ (exponent - target).toNat) false false) >>>
    (target - exponent).toNat

theorem moved_self (mantissa : Nat) (exponent : Int) :
    moved mantissa exponent exponent = ExtendedMantissa.mk mantissa false false := by
  rw [moved, Int.sub_self, Int.toNat_zero, Nat.pow_zero, Nat.mul_one]
  rfl

theorem moved_mul_two_pow (mantissa amount : Nat) (exponent target : Int) :
    moved (mantissa * 2 ^ amount) exponent target = moved mantissa (exponent + amount) target := by
  unfold moved
  rcases le_total target exponent with low | high
  · have apart : (exponent + amount - target).toNat = amount + (exponent - target).toNat := by omega
    rw [apart, Nat.pow_add, Nat.mul_assoc, Int.toNat_of_nonpos (by omega : target - exponent ≤ 0),
      Int.toNat_of_nonpos (by omega : target - (exponent + amount) ≤ 0)]
  · rw [Int.toNat_of_nonpos (by omega : exponent - target ≤ 0), Nat.pow_zero, Nat.mul_one]
    -- the zeros of the factor are cut off first, and bits of the mantissa only beyond them
    rcases le_total (target - exponent).toNat amount with within | beyond
    · have apart : amount = (exponent + amount - target).toNat + (target - exponent).toNat := by
        omega
      rw [Int.toNat_of_nonpos (by omega : target - (exponent + amount) ≤ 0)]
      conv_lhs => rw [apart, Nat.pow_add, ← Nat.mul_assoc, shiftRight_mul_two_pow]
      rfl
    · have apart : (target - exponent).toNat = amount + (target - (exponent + amount)).toNat := by
        omega
      rw [Int.toNat_of_nonpos (by omega : exponent + amount - target ≤ 0), Nat.pow_zero,
        Nat.mul_one, apart, shiftRight_add, shiftRight_mul_two_pow]

theorem log2_mul_two_pow (positive : 0 < mantissa) (amount : Nat) :
    (mantissa * 2 ^ amount).log2 = mantissa.log2 + amount := by
  have product := Nat.mul_pos positive (Nat.two_pow_pos amount)
  rw [Nat.log2_eq_iff product.ne']
  have := (Nat.log2_eq_iff positive.ne').mp rfl
  rw [Nat.pow_add, Nat.add_right_comm, Nat.pow_add]
  exact ⟨Nat.mul_le_mul_right _ this.1, Nat.mul_lt_mul_of_pos_right this.2 (Nat.two_pow_pos _)⟩

theorem totalExponent_mul_two_pow (positive : 0 < mantissa) (amount : Nat) (exponent : Int) :
    totalExponent (mantissa * 2 ^ amount) exponent =
      totalExponent mantissa (exponent + amount) := by
  unfold totalExponent
  rw [log2_mul_two_pow positive]
  omega

theorem target_mul_two_pow (positive : 0 < mantissa) (amount : Nat) (exponent : Int) :
    target (mantissa * 2 ^ amount) exponent = target mantissa (exponent + amount) := by
  rw [target, totalExponent_mul_two_pow positive, target]

/-- Rounding first moves a number to its target. -/
theorem shiftToTargetExponent_decreaseExponent (positive : 0 < mantissa) :
    shiftToTargetExponent .binary64
      (decreaseExponent mantissa exponent (target mantissa exponent)).1
      (decreaseExponent mantissa exponent (target mantissa exponent)).2 .exact =
    (moved mantissa exponent (target mantissa exponent), target mantissa exponent) := by
  have same := target_mul_two_pow positive (exponent - target mantissa exponent).toNat
    (exponent - (exponent - target mantissa exponent).toNat)
  rw [Int.sub_add_cancel] at same
  have amount : (target mantissa exponent -
      (exponent - (exponent - target mantissa exponent).toNat)).toNat =
        (target mantissa exponent - exponent).toNat := by omega
  unfold shiftToTargetExponent shiftToExponent decreaseExponent
  rw [target] at same
  simp only [Nat.shiftLeft_eq, same, amount]
  refine Prod.ext rfl ?_
  simp only
  omega

/-- The number that a mantissa rounds to, which may have gained a bit by it. -/
def settle (sign : Sign) (em : ExtendedMantissa) (exponent : Int) : UnpackedFloat :=
  let shifted := shiftToTargetExponent .binary64 em.roundedMantissa exponent .exact
  if h : shifted.1.mantissa = 0 then
    .zero sign
  else
    .finite sign shifted.1.mantissa shifted.2 (Nat.pos_of_ne_zero h)

theorem round_eq (positive : 0 < mantissa) :
    UnpackedFloat.round .binary64 sign mantissa exponent =
      settle sign (moved mantissa exponent (target mantissa exponent))
        (target mantissa exponent) := by
  have unfolded : UnpackedFloat.round .binary64 sign mantissa exponent =
      settle sign
        (shiftToTargetExponent .binary64
          (decreaseExponent mantissa exponent (target mantissa exponent)).1
          (decreaseExponent mantissa exponent (target mantissa exponent)).2 .exact).1
        (shiftToTargetExponent .binary64
          (decreaseExponent mantissa exponent (target mantissa exponent)).1
          (decreaseExponent mantissa exponent (target mantissa exponent)).2 .exact).2 := rfl
  rw [unfolded, shiftToTargetExponent_decreaseExponent positive]

/-- Rounding does not tell apart the ways to write down one number. -/
theorem round_mul_two_pow (positive : 0 < mantissa) (amount : Nat) :
    UnpackedFloat.round .binary64 sign (mantissa * 2 ^ amount) exponent =
      UnpackedFloat.round .binary64 sign mantissa (exponent + amount) := by
  rw [round_eq (Nat.mul_pos positive (Nat.two_pow_pos amount)), round_eq positive,
    target_mul_two_pow positive, moved_mul_two_pow]

theorem round_of_canonical (h : Canonical mantissa exponent) (positive : 0 < mantissa) :
    UnpackedFloat.round .binary64 sign mantissa exponent =
      .finite sign mantissa exponent positive := by
  have kept : shiftToTargetExponent .binary64 mantissa exponent .exact =
      (ExtendedMantissa.mk mantissa false false, exponent) := by
    have same := h.target_self positive
    rw [target] at same
    simp only [shiftToTargetExponent, shiftToExponent, same, Int.sub_self]
    exact Prod.ext rfl (Int.add_zero exponent)
  have rounded : (ExtendedMantissa.mk mantissa false false).roundedMantissa = mantissa := rfl
  rw [round_eq positive, h.target_self positive, moved_self]
  simp [settle, rounded, kept, positive.ne']

theorem roundWithAccuracy_eq_round (h : exponent ≤ target mantissa exponent) :
    roundWithAccuracy .binary64 sign mantissa exponent .exact =
      UnpackedFloat.round .binary64 sign mantissa exponent := by
  have unfolded : UnpackedFloat.round .binary64 sign mantissa exponent =
      roundWithAccuracy .binary64 sign
        (mantissa <<< (exponent - target mantissa exponent).toNat)
        (exponent - (exponent - target mantissa exponent).toNat) .exact := rfl
  rw [unfolded, Int.toNat_of_nonpos (by omega), Nat.shiftLeft_zero, Int.natCast_zero, Int.sub_zero]

section signed

variable {zeroSign : Sign} {m n : ℤ}

theorem exists_apply (h : m ≠ 0) :
    ∃ (sign : Sign) (mantissa : Nat), 0 < mantissa ∧ m = sign.apply mantissa := by
  rcases lt_or_gt_of_ne h with below | above
  · exact ⟨.negative, (-m).toNat, by omega, by simp only [Sign.apply]; omega⟩
  · exact ⟨.positive, m.toNat, by omega, by simp only [Sign.apply]; omega⟩

theorem apply_mul_two_pow (sign : Sign) (mantissa amount : Nat) :
    sign.apply (mantissa * 2 ^ amount : Nat) = sign.apply mantissa * 2 ^ amount := by
  cases sign <;> simp [Sign.apply]

theorem normalize_apply (positive : 0 < mantissa) :
    UnpackedFloat.normalize .binary64 (sign.apply mantissa) exponent zeroSign =
      UnpackedFloat.round .binary64 sign mantissa exponent := by
  cases sign with
  | negative =>
    have below : compare (-mantissa : ℤ) 0 = .lt := Int.compare_eq_lt.mpr (by omega)
    simp [UnpackedFloat.normalize, Sign.apply, below]
  | positive =>
    have above : compare (mantissa : ℤ) 0 = .gt := Int.compare_eq_gt.mpr (by omega)
    simp [UnpackedFloat.normalize, Sign.apply, above]

theorem normalize_mul_two_pow (m : ℤ) (amount : Nat) :
    UnpackedFloat.normalize .binary64 (m * 2 ^ amount) exponent zeroSign =
      UnpackedFloat.normalize .binary64 m (exponent + amount) zeroSign := by
  rcases eq_or_ne m 0 with rfl | nonzero
  · rw [Int.zero_mul]
    rfl
  · obtain ⟨sign, mantissa, positive, rfl⟩ := exists_apply nonzero
    rw [← apply_mul_two_pow, normalize_apply (Nat.mul_pos positive (Nat.two_pow_pos amount)),
      normalize_apply positive, round_mul_two_pow positive]

/-- Rounding a signed number, too, does not tell apart the ways to write it down. -/
theorem normalize_congr {e f : ℤ} (h : (m : ℚ) * 2 ^ e = n * 2 ^ f) :
    UnpackedFloat.normalize .binary64 m e zeroSign =
      UnpackedFloat.normalize .binary64 n f zeroSign := by
  wlog below : e ≤ f generalizing m n e f
  · exact (this h.symm (by omega)).symm
  obtain ⟨amount, rfl⟩ := Int.le.dest below
  have scaled : m = n * 2 ^ amount := by
    have power : (2 : ℚ) ^ e ≠ 0 := zpow_ne_zero e two_ne_zero
    rw [zpow_add₀ two_ne_zero, zpow_natCast, mul_comm ((2 : ℚ) ^ e), ← mul_assoc] at h
    exact_mod_cast mul_right_cancel₀ power h
  rw [scaled, normalize_mul_two_pow]

end signed

end Statline.Double
