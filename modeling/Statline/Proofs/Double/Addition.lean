import Mathlib
import Statline.Double

namespace Statline.Double

open Float.Model Float.Model.UnpackedFloat

variable {format : Format}

theorem isNaN_round (sign : Sign) (mantissa : Nat) (exponent : Int) :
    (UnpackedFloat.round format sign mantissa exponent).isNaN = false := by
  unfold UnpackedFloat.round roundWithAccuracy
  dsimp only
  split
  next => rfl
  next => rfl

theorem isNaN_normalize (mantissa exponent : Int) (zeroSign : Sign) :
    (UnpackedFloat.normalize format mantissa exponent zeroSign).isNaN = false := by
  unfold UnpackedFloat.normalize
  split
  next => exact isNaN_round _ _ _
  next => rfl
  next => exact isNaN_round _ _ _

theorem isNaN_add_unpacked {a b : UnpackedFloat} (ha : a.isNaN = false)
    (hb : b.isFinite = true) : (UnpackedFloat.add format a b).isNaN = false := by
  cases a with
  | notANumber => cases ha
  | infinity s =>
    cases b with
    | notANumber | infinity _ => cases hb
    | zero _ | finite _ _ _ _ => rfl
  | zero s =>
    cases b with
    | notANumber | infinity _ => cases hb
    | zero t => cases s <;> cases t <;> rfl
    | finite _ _ _ _ => rfl
  | finite s _ _ _ =>
    cases b with
    | notANumber | infinity _ => cases hb
    | zero _ => rfl
    | finite _ _ _ _ => exact isNaN_normalize _ _ _

theorem isNaN_unpack_packComponents {sign : Sign} {exponent : BitVec format.exponentBits}
    {mantissa : BitVec format.mantissaBitsWithoutImplicit}
    (h : exponent = BitVec.allOnes format.exponentBits → mantissa = 0) :
    (UnpackedFloat.unpack format (packComponents format sign exponent mantissa)).isNaN = false := by
  simp only [UnpackedFloat.unpack, unpackExponent_packComponents, unpackMantissa_packComponents,
    BitVec.neg_one_eq_allOnes]
  split
  next ones => simp [h ones, UnpackedFloat.isNaN]
  next =>
    split
    next => split <;> rfl
    next => rfl

/-- An exponent that is packed as it is stays below the one that marks what is not finite. -/
theorem ofNat_ne_neg_one {exponent : Nat} (h : exponent + 1 < 2 ^ format.exponentBits) :
    BitVec.ofNat format.exponentBits exponent ≠ BitVec.allOnes format.exponentBits := by
  intro same
  have same := congrArg BitVec.toNat same
  rw [BitVec.toNat_ofNat, Nat.mod_eq_of_lt (by omega), BitVec.toNat_allOnes] at same
  omega

theorem isNaN_unpack_pack {f : UnpackedFloat} (h : f.isNaN = false) :
    (UnpackedFloat.unpack format (UnpackedFloat.pack format f)).isNaN = false := by
  cases f with
  | notANumber => cases h
  | infinity s => exact isNaN_unpack_packComponents fun _ => rfl
  | zero s => exact isNaN_unpack_packComponents fun _ => rfl
  | finite s m e _ =>
    unfold UnpackedFloat.pack
    dsimp only
    split
    next => exact isNaN_unpack_packComponents fun _ => rfl
    next =>
      split
      next =>
        exact isNaN_unpack_packComponents fun ones => absurd ones (ofNat_ne_neg_one (by omega))
      next =>
        have bits := Nat.one_lt_two_pow (Nat.ne_of_gt format.he)
        exact isNaN_unpack_packComponents fun ones => absurd ones (ofNat_ne_neg_one bits)

/-- Only the sum of opposite infinities is not a number. -/
theorem isNaN_add {x y : Float} (hx : x.isNaN = false) (hy : y.isFinite = true) :
    (x + y).isNaN = false :=
  isNaN_unpack_pack (isNaN_add_unpacked hx hy)

end Statline.Double
