import Statline.Proofs.Double.Nearest

namespace Statline.Double

open Float.Model

theorem mantissa_shiftRight (em : UnpackedFloat.ExtendedMantissa) (amount : Nat) :
    (em >>> amount).mantissa = em.mantissa / 2 ^ amount := by
  induction amount with
  | zero => exact (Nat.div_one _).symm
  | succ amount ih =>
    have once : (em >>> (amount + 1)).mantissa = (em >>> amount).mantissa / 2 := rfl
    rw [once, ih, Nat.div_div_eq_div_mul, Nat.pow_succ]

theorem roundToInt_positive (mantissa : Nat) (exponent : Int) :
    UnpackedFloat.roundToInt .positive mantissa exponent =
      (mantissa * 2 ^ exponent.toNat / 2 ^ (-exponent).toNat : Nat) := by
  have shift : (0 - (exponent - exponent.toNat)).toNat = (-exponent).toNat := by omega
  simp only [UnpackedFloat.roundToInt, UnpackedFloat.decreaseExponent,
    UnpackedFloat.shiftToExponent, UnpackedFloat.Sign.apply, mantissa_shiftRight, Int.sub_zero,
    shift, Nat.shiftLeft_eq, UnpackedFloat.ExtendedMantissa.ofMantissaAndAccuracy]

theorem floor_mul_two_zpow (mantissa : Nat) (exponent : Int) :
    ⌊(mantissa : ℚ) * 2 ^ exponent⌋₊ = mantissa * 2 ^ exponent.toNat / 2 ^ (-exponent).toNat := by
  rcases Int.le_total 0 exponent with above | below
  · obtain ⟨amount, rfl⟩ := Int.eq_ofNat_of_zero_le above
    have whole : (mantissa : ℚ) * 2 ^ (amount : ℤ) = (mantissa * 2 ^ amount : ℕ) := by
      push_cast
      rfl
    rw [whole, Nat.floor_natCast]
    simp
  · obtain ⟨amount, rfl⟩ := Int.exists_eq_neg_ofNat below
    have quotient : (mantissa : ℚ) * 2 ^ (-(amount : ℤ)) = (mantissa : ℚ) / (2 ^ amount : ℕ) := by
      rw [zpow_neg, zpow_natCast, div_eq_mul_inv]
      push_cast
      rfl
    rw [quotient, Nat.floor_div_eq_div]
    simp

variable {x : Float}

/-- What is 1 at least has its leading bit in front of the point. -/
theorem shape_of_one_le (h : 1.0 ≤ x) :
    x.toModel.unpack = .infinity .positive ∨ ∃ mantissa exponent positive,
      x.toModel.unpack = .finite .positive mantissa exponent positive ∧
        -52 ≤ exponent ∧ 2 ^ 52 ≤ mantissa := by
  have one : rank 1.0 = toLex (1, toLex (-52, 2 ^ 52)) := by rfl
  obtain ⟨_, number, above⟩ := le_iff.mp h
  have same : x.isNaN = x.toModel.unpack.isNaN := rfl
  rw [one, rank] at above
  rw [same] at number
  cases shape : x.toModel.unpack with
  | notANumber => simp [shape, UnpackedFloat.isNaN] at number
  | infinity sign =>
    cases sign with
    | negative => simp [shape, place, Prod.Lex.toLex_le_toLex] at above
    | positive => exact .inl rfl
  | zero sign => simp [shape, place, Prod.Lex.toLex_le_toLex] at above
  | finite sign mantissa exponent positive =>
    cases sign with
    | negative => simp [shape, place, Prod.Lex.toLex_le_toLex] at above
    | positive =>
      have least : -52 < exponent ∨ exponent = -52 ∧ 2 ^ 52 ≤ mantissa := by
        simp [shape, place, Prod.Lex.toLex_le_toLex] at above
        omega
      have leading : 2 ^ 52 ≤ mantissa := by
        rcases (canonical_of_unpack shape).leading with tiny | leading
        · omega
        · exact leading
      exact .inr ⟨mantissa, exponent, positive, rfl, by omega, leading⟩

theorem toNat_toUInt64 (x : Float) :
    x.toUInt64.toNat =
      min (x.toModel.unpack.toInt 0 (UInt64.size - 1)).toNat (UInt64.size - 1) := by
  have clamped : x.toUInt64 =
      UInt64.ofNatClamp (x.toModel.unpack.toInt 0 (UInt64.size - 1)).toNat := rfl
  rw [clamped, UInt64.ofNatClamp]
  split <;> rw [UInt64.toNat_ofNatLT] <;> omega

/-- What is 1 at least does not vanish when its fraction is cut off. -/
theorem toUInt64_pos (h : 1.0 ≤ x) : 0 < x.toUInt64.toNat := by
  have whole : 0 < x.toModel.unpack.toInt 0 (UInt64.size - 1) := by
    rcases shape_of_one_le h with shape | ⟨mantissa, exponent, positive, shape, least, leading⟩
    · rw [shape]
      decide
    · have fits : 2 ^ (-exponent).toNat ≤ mantissa * 2 ^ exponent.toNat :=
        calc 2 ^ (-exponent).toNat ≤ 2 ^ 52 := Nat.pow_le_pow_right (by omega) (by omega)
          _ ≤ mantissa := leading
          _ ≤ mantissa * 2 ^ exponent.toNat := Nat.le_mul_of_pos_right _ (Nat.two_pow_pos _)
      rw [shape, UnpackedFloat.toInt, roundToInt_positive]
      exact Int.natCast_pos.mpr (Nat.div_pos fits (Nat.two_pow_pos _))
  rw [toNat_toUInt64]
  have size : UInt64.size = 18446744073709551616 := rfl
  omega

/-- Within the range of the 64-bit numbers only the fraction is cut off. -/
theorem toUInt64_eq_floor (h : 1.0 ≤ x) (below : x < 18446744073709551616.0) :
    x.toUInt64.toNat = ⌊toRat x⌋₊ := by
  have limit : rank 18446744073709551616.0 = toLex (1, toLex (12, 2 ^ 52)) := by rfl
  have size : UInt64.size = 2 ^ 64 := rfl
  obtain ⟨_, _, above⟩ := lt_iff.mp below
  rw [limit, rank] at above
  rcases shape_of_one_le h with shape | ⟨mantissa, exponent, positive, shape, least, leading⟩
  · simp [shape, place, Prod.Lex.toLex_lt_toLex] at above
  · have most : exponent ≤ 11 := by
      simp [shape, place, Prod.Lex.toLex_lt_toLex] at above
      omega
    have bits := (canonical_of_unpack shape).bits
    have fits : mantissa * 2 ^ exponent.toNat / 2 ^ (-exponent).toNat < UInt64.size :=
      calc mantissa * 2 ^ exponent.toNat / 2 ^ (-exponent).toNat
          ≤ mantissa * 2 ^ exponent.toNat := Nat.div_le_self _ _
        _ ≤ mantissa * 2 ^ 11 := Nat.mul_le_mul_left _ (Nat.pow_le_pow_right (by omega) (by omega))
        _ < UInt64.size := by omega
    have exact : toRat x = mantissa * 2 ^ exponent := by
      rw [toRat, shape, value, UnpackedFloat.Sign.apply, Int.cast_natCast]
    rw [exact, floor_mul_two_zpow, toNat_toUInt64, shape, UnpackedFloat.toInt, roundToInt_positive,
      Int.toNat_natCast]
    omega

end Statline.Double
