import Statline.Proofs.Double.Truncation

namespace Statline.Double

open Float.Model Float.Model.UnpackedFloat

/-- The least number that rounds to no finite double. It lies half way between the greatest of them
and 2 ^ 1024, and of these the latter has the even mantissa. -/
def limit : ℚ := (2 ^ 54 - 1) * 2 ^ (970 : ℤ)

section packed

variable {sign : Sign} {mantissa : Nat} {exponent : Int} {positive : 0 < mantissa}

theorem isFinite_unpack_packComponents {format : Format} {exponent : BitVec format.exponentBits}
    {mantissa : BitVec format.mantissaBitsWithoutImplicit}
    (h : exponent ≠ BitVec.allOnes format.exponentBits) :
    (UnpackedFloat.unpack format (packComponents format sign exponent mantissa)).isFinite =
      true := by
  simp only [UnpackedFloat.unpack, unpackExponent_packComponents, unpackMantissa_packComponents,
    BitVec.neg_one_eq_allOnes, if_neg h]
  split
  next => split <;> rfl
  next => rfl

/-- Only an exponent beyond those of the stored numbers is packed as that of the infinite ones. -/
theorem isFinite_unpack_pack (most : exponent ≤ 971) :
    (UnpackedFloat.unpack .binary64 (UnpackedFloat.pack .binary64
      (.finite sign mantissa exponent positive))).isFinite = true := by
  have bias : (Format.binary64.exponentBias : Int) = 1023 := rfl
  have width : (Format.binary64.mantissaBitsWithoutImplicit : Int) = 52 := rfl
  have patterns : 2 ^ Format.binary64.exponentBits = 2048 := rfl
  have packed : (exponent + 1023 + 52).toNat + 1 < 2 ^ Format.binary64.exponentBits := by omega
  unfold UnpackedFloat.pack
  dsimp only
  rw [bias, width, if_neg (not_le.mpr packed)]
  split
  next => exact isFinite_unpack_packComponents (ofNat_ne_neg_one packed)
  next => exact isFinite_unpack_packComponents (by decide)

end packed

section rounded

variable {sign : Sign} {mantissa : Nat} {exponent : Int} {em : ExtendedMantissa}

theorem roundBit_shiftRight (em : ExtendedMantissa) (amount : Nat) :
    (em >>> (amount + 1)).roundBit = (em.mantissa / 2 ^ amount % 2 != 0) := by
  have once : (em >>> (amount + 1)).roundBit = ((em >>> amount).mantissa % 2 != 0) := rfl
  rw [once, mantissa_shiftRight]

/-- Rounding counts up by one at most, and only where the first bit that is cut off is set. -/
theorem roundedMantissa_le (em : ExtendedMantissa) :
    em.roundedMantissa ≤ em.mantissa + em.roundBit.toNat := by
  obtain ⟨m, round, sticky⟩ := em
  have parity : m % 2 < 2 := Nat.mod_lt m two_pos
  cases round <;> cases sticky <;>
    simp only [ExtendedMantissa.roundedMantissa, ExtendedMantissa.accuracy,
      Accuracy.roundToNearestEven, Bool.toNat_true, Bool.toNat_false] <;> omega

theorem isFinite_settle (most : exponent ≤ 971)
    (carried : (em.roundedMantissa.log2 : Int) + exponent ≤ 1023) :
    (UnpackedFloat.unpack .binary64
      (UnpackedFloat.pack .binary64 (settle sign em exponent))).isFinite = true := by
  have landed : (shiftToTargetExponent .binary64 em.roundedMantissa exponent .exact).2 =
      exponent + (target em.roundedMantissa exponent - exponent).toNat := rfl
  rw [target_eq] at landed
  unfold settle
  dsimp only
  split
  next => cases sign <;> rfl
  next => exact isFinite_unpack_pack (by omega)

theorem mantissa_moved (mantissa : Nat) (exponent target : Int) :
    (moved mantissa exponent target).mantissa =
      mantissa * 2 ^ (exponent - target).toNat / 2 ^ (target - exponent).toNat :=
  mantissa_shiftRight _ _

/-- What is moved to its target has no more bits than are stored. -/
theorem mantissa_moved_lt (positive : 0 < mantissa) (exponent : Int) :
    (moved mantissa exponent (target mantissa exponent)).mantissa < 2 ^ 53 := by
  have digits := log2_mul_two_pow positive (exponent - target mantissa exponent).toNat
  have scaled := Nat.mul_pos positive (Nat.two_pow_pos (exponent - target mantissa exponent).toNat)
  have landed := target_eq mantissa exponent
  rw [mantissa_moved, Nat.div_lt_iff_lt_mul (Nat.two_pow_pos _), ← Nat.pow_add,
    ← Nat.log2_lt scaled.ne', digits]
  omega

theorem log2_add_le (positive : 0 < mantissa) (below : (mantissa : ℚ) * 2 ^ exponent < limit) :
    (mantissa.log2 : Int) + exponent ≤ 1023 := by
  have leading : (2 : ℚ) ^ mantissa.log2 ≤ mantissa :=
    mod_cast ((Nat.log2_eq_iff positive.ne').mp rfl).1
  have power : (2 : ℚ) ^ ((mantissa.log2 : ℤ) + exponent) < 2 ^ (1024 : ℤ) :=
    calc (2 : ℚ) ^ ((mantissa.log2 : ℤ) + exponent)
        = 2 ^ mantissa.log2 * 2 ^ exponent := by rw [zpow_add₀ two_ne_zero, zpow_natCast]
      _ ≤ mantissa * 2 ^ exponent := by gcongr
      _ < limit := below
      _ < 2 ^ (54 : ℤ) * 2 ^ (970 : ℤ) := by
        unfold limit
        gcongr
        norm_num
      _ = 2 ^ (1024 : ℤ) := (zpow_add₀ two_ne_zero 54 970).symm
  have := (zpow_lt_zpow_iff_right₀ one_lt_two).mp power
  omega

/-- A mantissa whose bits are all set is not rounded up at the greatest exponent. -/
theorem roundBit_moved (below : (mantissa : ℚ) * 2 ^ exponent < limit)
    (full : (moved mantissa exponent 971).mantissa = 2 ^ 53 - 1) :
    (moved mantissa exponent 971).roundBit = false := by
  rcases le_or_gt 971 exponent with above | cut
  · have kept : (971 - exponent).toNat = 0 := by omega
    rw [moved, kept]
    rfl
  · obtain ⟨amount, cut⟩ : ∃ amount : Nat, exponent + amount = 970 :=
      ⟨(970 - exponent).toNat, by omega⟩
    have forward : (971 - exponent).toNat = amount + 1 := by omega
    have backward : (exponent - 971).toNat = 0 := by omega
    have scaled : (mantissa : ℚ) < (2 ^ 54 - 1) * 2 ^ amount := by
      rw [limit, ← cut, zpow_add₀ two_ne_zero, zpow_natCast, mul_comm ((2 : ℚ) ^ exponent),
        ← mul_assoc] at below
      exact lt_of_mul_lt_mul_right below (zpow_nonneg zero_le_two exponent)
    have short : mantissa / 2 ^ amount < 2 ^ 54 - 1 := by
      rw [Nat.div_lt_iff_lt_mul (Nat.two_pow_pos amount)]
      norm_num at scaled
      exact_mod_cast scaled
    rw [mantissa_moved, forward, backward, Nat.pow_zero, Nat.mul_one, Nat.pow_succ,
      ← Nat.div_div_eq_div_mul] at full
    have even : mantissa / 2 ^ amount % 2 = 0 := by omega
    rw [moved, forward, backward, roundBit_shiftRight, Nat.pow_zero, Nat.mul_one, even]
    rfl

/-- Below the limit a carry into a bit more does not lead beyond the greatest exponent. -/
theorem log2_roundedMantissa_add_le (positive : 0 < mantissa)
    (below : (mantissa : ℚ) * 2 ^ exponent < limit) :
    ((moved mantissa exponent (target mantissa exponent)).roundedMantissa.log2 : Int) +
      target mantissa exponent ≤ 1023 := by
  have landed := target_eq mantissa exponent
  have most := log2_add_le positive below
  have short := mantissa_moved_lt positive exponent
  have counted := roundedMantissa_le (moved mantissa exponent (target mantissa exponent))
  have bit := Bool.toNat_le (moved mantissa exponent (target mantissa exponent)).roundBit
  rcases eq_or_ne (moved mantissa exponent (target mantissa exponent)).roundedMantissa 0 with
    zero | nonzero
  · rw [zero, Nat.log2_zero]
    omega
  by_cases last : target mantissa exponent = 971
  · rw [last] at short counted bit nonzero ⊢
    have kept : (moved mantissa exponent 971).roundedMantissa < 2 ^ 53 := by
      by_cases full : (moved mantissa exponent 971).mantissa = 2 ^ 53 - 1
      · rw [roundBit_moved below full, Bool.toNat_false] at counted
        omega
      · omega
    have := (Nat.log2_lt nonzero).mpr kept
    omega
  · have carried := (Nat.log2_lt (k := 54) nonzero).mpr (by omega)
    omega

theorem isFinite_round (positive : 0 < mantissa)
    (below : (mantissa : ℚ) * 2 ^ exponent < limit) :
    (UnpackedFloat.unpack .binary64 (UnpackedFloat.pack .binary64
      (UnpackedFloat.round .binary64 sign mantissa exponent))).isFinite = true := by
  have landed := target_eq mantissa exponent
  have most := log2_add_le positive below
  rw [round_eq positive]
  exact isFinite_settle (by omega) (log2_roundedMantissa_add_le positive below)

end rounded

section doubles

variable {q : ℚ} {m e : ℤ} {x y : Float}

theorem abs_apply_mul_zpow (sign : Sign) (mantissa : Nat) (exponent : Int) :
    |(sign.apply mantissa : ℚ) * 2 ^ exponent| = mantissa * 2 ^ exponent := by
  rw [abs_mul, abs_of_pos (zpow_pos (zero_lt_two' ℚ) exponent)]
  cases sign <;> simp [Sign.apply]

theorem isFinite_nearest (h : q = m * 2 ^ e) (below : |q| < limit) :
    (nearest q).isFinite = true := by
  rcases eq_or_ne m 0 with rfl | nonzero
  · rw [nearest_eq (m := 0) (e := 0) (by simpa using h)]
    rfl
  · obtain ⟨sign, mantissa, positive, rfl⟩ := exists_apply nonzero
    rw [h, abs_apply_mul_zpow] at below
    rw [nearest_eq h, normalize_apply positive]
    exact isFinite_round positive below

theorem exists_toRat_eq (x : Float) : ∃ m e : ℤ, toRat x = m * 2 ^ e := by
  rw [toRat]
  cases x.toModel.unpack with
  | notANumber | infinity _ | zero _ => exact ⟨0, 0, by simp [value]⟩
  | finite sign mantissa exponent _ => exact ⟨sign.apply mantissa, exponent, rfl⟩

theorem exists_add_toRat_eq (x y : Float) : ∃ m e : ℤ, toRat x + toRat y = m * 2 ^ e := by
  obtain ⟨m, e, hx⟩ := exists_toRat_eq x
  obtain ⟨n, f, hy⟩ := exists_toRat_eq y
  rw [hx, hy]
  clear hx hy
  wlog below : e ≤ f generalizing m n e f
  · rw [add_comm]
    exact this n f m e (by omega)
  · obtain ⟨amount, rfl⟩ := Int.le.dest below
    refine ⟨m + n * 2 ^ amount, e, ?_⟩
    rw [zpow_add₀ two_ne_zero, zpow_natCast]
    push_cast
    ring

theorem abs_toRat_le (x : Float) : |toRat x| ≤ (2 ^ 53 - 1) * 2 ^ (971 : ℤ) := by
  rw [toRat]
  cases shape : x.toModel.unpack with
  | notANumber | infinity _ | zero _ =>
    rw [value, abs_zero]
    positivity
  | finite sign mantissa exponent positive =>
    obtain ⟨bits, _, most, _⟩ := canonical_of_unpack shape
    have bits : (mantissa : ℚ) + 1 ≤ 2 ^ 53 := mod_cast bits
    rw [value, abs_apply_mul_zpow]
    gcongr
    · exact le_sub_right_of_add_le bits
    · exact one_le_two

/-- What is too small to reach the limit can be added to any finite number. -/
theorem isFinite_add (hx : x.isFinite = true) (hy : y.isFinite = true)
    (small : |toRat y| < 2 ^ (970 : ℤ)) : (x + y).isFinite = true := by
  obtain ⟨m, e, same⟩ := exists_add_toRat_eq x y
  have below : |toRat x + toRat y| < limit :=
    calc |toRat x + toRat y| ≤ |toRat x| + |toRat y| := abs_add_le _ _
      _ < (2 ^ 53 - 1) * 2 ^ (971 : ℤ) + 2 ^ (970 : ℤ) :=
          add_lt_add_of_le_of_lt (abs_toRat_le x) small
      _ = limit := by
          rw [limit, show (971 : ℤ) = 1 + 970 from rfl, zpow_add₀ two_ne_zero]
          ring
  rw [isFinite_eq_of_rank_eq (rank_add hx hy)]
  exact isFinite_nearest same below

end doubles

end Statline.Double
