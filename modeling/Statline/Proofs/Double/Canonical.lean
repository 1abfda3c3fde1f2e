import Statline.Proofs.Double.Order

namespace Statline.Double

open Float.Model Float.Model.UnpackedFloat

/-- The mantissas and exponents of stored numbers: the leading bit of a mantissa is set, unless the
exponent is the least there is. -/
structure Canonical (mantissa : Nat) (exponent : Int) : Prop where
  bits : mantissa < 2 ^ 53
  least : -1074 ≤ exponent
  most : exponent ≤ 971
  leading : exponent = -1074 ∨ 2 ^ 52 ≤ mantissa

/-- The exponent at which a number is stored. -/
def target (mantissa : Nat) (exponent : Int) : Int :=
  Format.binary64.targetExponent (totalExponent mantissa exponent)

theorem target_eq (mantissa : Nat) (exponent : Int) :
    target mantissa exponent = max (mantissa.log2 + 1 + exponent - 53) (-1074) :=
  rfl

variable {sign : Sign} {mantissa : Nat} {exponent : Int} {positive : 0 < mantissa}

theorem canonical_of_unpack {model : Float.Model}
    (h : model.unpack = .finite sign mantissa exponent positive) : Canonical mantissa exponent := by
  unfold Float.Model.unpack UnpackedFloat.unpack at h
  dsimp only at h
  split at h
  next => split at h <;> cases h
  next finite =>
    have bias : (Format.binary64.exponentBias : Int) = 1023 := rfl
    split at h
    next small =>
      split at h
      next => cases h
      next =>
        cases h
        have bits := (@unpackMantissa .binary64 model.toBits.toBitVec).isLt
        rw [small]
        refine ⟨by omega, ?_, ?_, .inl rfl⟩ <;> simp [bias]
    next large =>
      cases h
      have range : (@unpackExponent .binary64 model.toBits.toBitVec).toNat < 2 ^ 11 :=
        BitVec.isLt _
      generalize @unpackExponent .binary64 model.toBits.toBitVec = stored at *
      have above : stored.toNat ≠ 0 := fun zero => large (BitVec.eq_of_toNat_eq zero)
      have below : stored.toNat ≠ 2047 := fun all => finite (BitVec.eq_of_toNat_eq all)
      refine ⟨BitVec.isLt _, by omega, by omega, .inr ?_⟩
      rw [BitVec.toNat_append]
      exact Nat.left_le_or

@[simp]
theorem unpackSign_packComponents {format : Format} {exponent : BitVec format.exponentBits}
    {mantissa : BitVec format.mantissaBitsWithoutImplicit} :
    unpackSign (packComponents format sign exponent mantissa) = sign.toBitVec := by
  ext i hi
  obtain rfl : i = 0 := by omega
  have above : ¬format.mantissaBitsWithoutImplicit + format.exponentBits <
      format.mantissaBitsWithoutImplicit := by omega
  simp [unpackSign, packComponents, BitVec.getLsbD_append, BitVec.getElem_append, above]

@[simp]
theorem ofBitVec_toBitVec (sign : Sign) : Sign.ofBitVec sign.toBitVec = sign := by
  cases sign <;> rfl

theorem unpack_normal {stored : Nat} (above : 0 < stored) (below : stored < 2047)
    (bits : mantissa < 2 ^ 53) (leading : 2 ^ 52 ≤ mantissa)
    (he : (stored : Int) - 1075 = exponent) :
    UnpackedFloat.unpack .binary64
      (packComponents .binary64 sign (BitVec.ofNat 11 stored) (BitVec.ofNat 52 mantissa)) =
        .finite sign mantissa exponent positive := by
  have bias : (Format.binary64.exponentBias : Int) = 1023 := rfl
  have range : (BitVec.ofNat 11 stored).toNat = stored := by
    rw [BitVec.toNat_ofNat, Nat.mod_eq_of_lt (by omega)]
  have fraction : (BitVec.ofNat 52 mantissa).toNat = mantissa - 2 ^ 52 := by
    rw [BitVec.toNat_ofNat, Nat.mod_eq_sub_mod leading, Nat.mod_eq_of_lt (by omega)]
  have joined : (1#1 ++ BitVec.ofNat 52 mantissa).toNat = mantissa := by
    have apart := Nat.shiftLeft_add_eq_or_of_lt (BitVec.ofNat 52 mantissa).isLt 1
    rw [BitVec.toNat_append, BitVec.toNat_ofNat, ← apart, fraction]
    omega
  have nonzero : BitVec.ofNat 11 stored ≠ 0#11 := by
    intro zero
    rw [zero] at range
    exact above.ne range
  have finite : BitVec.ofNat 11 stored ≠ 2047#11 := by
    intro all
    rw [all] at range
    exact below.ne' range
  simp [UnpackedFloat.unpack, nonzero, finite, bias, ← he, joined, range, -BitVec.toNat_ofNat]

theorem unpack_subnormal (short : mantissa < 2 ^ 52) :
    UnpackedFloat.unpack .binary64
      (packComponents .binary64 sign 0#11 (BitVec.ofNat 52 mantissa)) =
        .finite sign mantissa (-1074) positive := by
  have bias : (Format.binary64.exponentBias : Int) = 1023 := rfl
  have fraction : (BitVec.ofNat 52 mantissa).toNat = mantissa := by
    rw [BitVec.toNat_ofNat, Nat.mod_eq_of_lt short]
  have nonzero : BitVec.ofNat 52 mantissa ≠ 0#52 := by
    intro zero
    rw [zero] at fraction
    exact positive.ne fraction
  simp [UnpackedFloat.unpack, nonzero, bias, fraction]

namespace Canonical

theorem target_self (h : Canonical mantissa exponent) (positive : 0 < mantissa) :
    target mantissa exponent = exponent := by
  rw [target_eq]
  have least := h.least
  have bits : mantissa.log2 < 53 := (Nat.log2_lt positive.ne').mpr h.bits
  rcases h.leading with tiny | leading
  · omega
  · have : 52 ≤ mantissa.log2 := (Nat.le_log2 positive.ne').mpr leading
    omega

theorem unpack_pack (h : Canonical mantissa exponent) :
    UnpackedFloat.unpack .binary64
      (UnpackedFloat.pack .binary64 (.finite sign mantissa exponent positive)) =
        .finite sign mantissa exponent positive := by
  obtain ⟨bits, least, most, leading⟩ := h
  have bias : (Format.binary64.exponentBias : Int) = 1023 := rfl
  have width : (Format.binary64.mantissaBitsWithoutImplicit : Int) = 52 := rfl
  have digits : Format.binary64.mantissaBits = 53 := rfl
  unfold UnpackedFloat.pack
  dsimp only
  rw [bias, width, if_neg (by omega)]
  split
  next normal =>
    exact unpack_normal (by omega) (by omega) bits ((Nat.le_log2 positive.ne').mp (by omega))
      (by omega)
  next subnormal =>
    have short : mantissa < 2 ^ 52 := by
      have := (Nat.log2_lt positive.ne').mpr bits
      exact (Nat.log2_lt positive.ne').mp (by omega)
    obtain rfl : exponent = -1074 := leading.resolve_right (by omega)
    exact unpack_subnormal short

end Canonical

end Statline.Double
