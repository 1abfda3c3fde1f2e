import Statline.Proofs.Double.Addition
import Statline.Proofs.Double.Rounding

namespace Statline.Double

open Float.Model Float.Model.UnpackedFloat

/-- The rational number that a double stands for, 0 if it stands for none. -/
def value : UnpackedFloat → ℚ
  | .notANumber | .infinity _ | .zero _ => 0
  | .finite sign mantissa exponent _ => sign.apply mantissa * 2 ^ exponent

def toRat (x : Float) : ℚ :=
  value x.toModel.unpack

/-- The double nearest to a number whose denominator is a power of two. -/
def nearest (q : ℚ) : Float :=
  .ofModel (.pack (.normalize .binary64 q.num (-q.den.log2) .positive))

theorem exists_den_eq (m e : ℤ) : ∃ n, ((m : ℚ) * 2 ^ e).den = 2 ^ n := by
  have divides : ((m : ℚ) * 2 ^ e).den ∣ 2 ^ (-e).toNat := by
    rcases le_total 0 e with above | below
    · obtain ⟨k, rfl⟩ := Int.eq_ofNat_of_zero_le above
      have whole : (m : ℚ) * 2 ^ (k : ℤ) = (m * 2 ^ k : ℤ) := by push_cast; rfl
      rw [whole, Rat.den_intCast]
      exact Nat.one_dvd _
    · obtain ⟨k, rfl⟩ := Int.exists_eq_neg_ofNat below
      have quotient : (m : ℚ) * 2 ^ (-(k : ℤ)) = Rat.divInt m (2 ^ k : ℕ) := by
        rw [Rat.divInt_eq_div, zpow_neg, zpow_natCast, div_eq_mul_inv]
        push_cast
        rfl
      rw [quotient, neg_neg, Int.toNat_natCast]
      exact_mod_cast Rat.den_dvd m (2 ^ k : ℕ)
  obtain ⟨n, _, same⟩ := (Nat.dvd_prime_pow Nat.prime_two).mp divides
  exact ⟨n, same⟩

theorem nearest_eq {q : ℚ} {m e : ℤ} (h : q = m * 2 ^ e) :
    nearest q = .ofModel (.pack (.normalize .binary64 m e .positive)) := by
  obtain ⟨n, power⟩ := exists_den_eq m e
  rw [← h] at power
  have reduced : (q.num : ℚ) * 2 ^ (-(q.den.log2 : ℤ)) = m * 2 ^ e := by
    rw [← h, power, Nat.log2_two_pow, zpow_neg, zpow_natCast, ← div_eq_mul_inv]
    conv_rhs => rw [← Rat.num_div_den q, power]
    push_cast
    rfl
  rw [nearest, normalize_congr reduced]

theorem isNaN_nearest (q : ℚ) : (nearest q).isNaN = false :=
  isNaN_unpack_pack (isNaN_normalize _ _ _)

section unpacked

variable {sign sign' : Sign} {mantissa mantissa' : Nat} {exponent exponent' : Int}
  {positive : 0 < mantissa} {positive' : 0 < mantissa'}

theorem nearest_finite (h : Canonical mantissa exponent) :
    nearest (value (.finite sign mantissa exponent positive)) =
      .ofModel (.pack (.finite sign mantissa exponent positive)) := by
  have written : value (.finite sign mantissa exponent positive) =
      sign.apply mantissa * 2 ^ exponent := rfl
  rw [nearest_eq written, normalize_apply positive, round_of_canonical h positive]

theorem apply_shiftLeft {target : Int} (h : target ≤ exponent) :
    (sign.apply (mantissa <<< (exponent - target).toNat : Nat) : ℚ) * 2 ^ target =
      sign.apply mantissa * 2 ^ exponent := by
  obtain ⟨amount, rfl⟩ := Int.le.dest h
  rw [add_sub_cancel_left, Int.toNat_natCast, Nat.shiftLeft_eq, apply_mul_two_pow,
    zpow_add₀ two_ne_zero, zpow_natCast]
  push_cast
  ring

theorem nearest_add :
    nearest (value (.finite sign mantissa exponent positive) +
      value (.finite sign' mantissa' exponent' positive')) =
        .ofModel (.pack (.add .binary64 (.finite sign mantissa exponent positive)
          (.finite sign' mantissa' exponent' positive'))) := by
  refine nearest_eq ?_
  rw [value, value, ← apply_shiftLeft (min_le_left exponent exponent'),
    ← apply_shiftLeft (min_le_right exponent exponent')]
  push_cast
  ring

theorem apply_mul (m n : ℤ) : (sign * sign').apply (m * n) = sign.apply m * sign'.apply n := by
  cases sign <;> cases sign'
  · exact (Int.neg_mul_neg m n).symm
  · exact (Int.neg_mul m n).symm
  · exact (Int.mul_neg m n).symm
  · rfl

/-- A product has bits enough for its place. -/
theorem Canonical.add_le_target (h : Canonical mantissa exponent)
    (h' : Canonical mantissa' exponent') (positive : 0 < mantissa) (positive' : 0 < mantissa') :
    exponent + exponent' ≤ target (mantissa * mantissa') (exponent + exponent') := by
  have product := Nat.mul_pos positive positive'
  have digits (long : 2 ^ 52 ≤ mantissa * mantissa') :
      exponent + exponent' ≤ target (mantissa * mantissa') (exponent + exponent') := by
    have := (Nat.le_log2 product.ne').mpr long
    rw [target_eq]
    omega
  rcases h.leading with tiny | leading
  · rcases h'.leading with tiny' | leading'
    · rw [target_eq]
      omega
    · exact digits (leading'.trans (Nat.le_mul_of_pos_left _ positive))
  · exact digits (leading.trans (Nat.le_mul_of_pos_right _ positive'))

theorem nearest_mul (h : Canonical mantissa exponent) (h' : Canonical mantissa' exponent') :
    nearest (value (.finite sign mantissa exponent positive) *
      value (.finite sign' mantissa' exponent' positive')) =
        .ofModel (.pack (.mul .binary64 (.finite sign mantissa exponent positive)
          (.finite sign' mantissa' exponent' positive'))) := by
  have written : value (.finite sign mantissa exponent positive) *
      value (.finite sign' mantissa' exponent' positive') =
        ((sign * sign').apply (mantissa * mantissa' : Nat) : ℤ) * 2 ^ (exponent + exponent') := by
    rw [value, value, Nat.cast_mul, apply_mul, zpow_add₀ two_ne_zero]
    push_cast
    ring
  rw [nearest_eq written, normalize_apply (Nat.mul_pos positive positive'), UnpackedFloat.mul,
    roundWithAccuracy_eq_round (h.add_le_target h' positive positive')]

end unpacked

variable {x y : Float}

theorem shape_of_isFinite (hx : x.isFinite = true) :
    (∃ sign, x.toModel.unpack = .zero sign) ∨
      ∃ sign mantissa exponent positive,
        x.toModel.unpack = .finite sign mantissa exponent positive := by
  have same : x.isFinite = x.toModel.unpack.isFinite := rfl
  rw [same] at hx
  cases shape : x.toModel.unpack with
  | notANumber | infinity _ => simp [shape, UnpackedFloat.isFinite] at hx
  | zero sign => exact .inl ⟨sign, rfl⟩
  | finite sign mantissa exponent positive => exact .inr ⟨sign, mantissa, exponent, positive, rfl⟩

theorem rank_nearest_zero : rank (nearest 0) = toLex (0, toLex (0, 0)) := by
  rw [nearest_eq (m := 0) (e := 0) (by simp)]
  rfl

theorem place_pack_zero (sign : Sign) :
    place (Float.Model.pack (.zero sign)).unpack = toLex (0, toLex (0, 0)) := by
  cases sign <;> rfl

theorem toRat_eq_zero {sign : Sign} (h : x.toModel.unpack = .zero sign) : toRat x = 0 := by
  rw [toRat, h, value]

theorem rank_nearest (hx : x.isFinite = true) : rank (nearest (toRat x)) = rank x := by
  rcases shape_of_isFinite hx with ⟨sign, shape⟩ | ⟨sign, mantissa, exponent, positive, shape⟩
  · rw [toRat_eq_zero shape, rank_nearest_zero, rank, shape]
    rfl
  · have canonical := canonical_of_unpack shape
    rw [toRat, shape, nearest_finite canonical, rank, rank, shape]
    exact congrArg place canonical.unpack_pack

/-- Addition is exact but for one rounding. -/
theorem rank_add (hx : x.isFinite = true) (hy : y.isFinite = true) :
    rank (x + y) = rank (nearest (toRat x + toRat y)) := by
  have unfolded : rank (x + y) =
      place (Float.Model.pack (.add .binary64 x.toModel.unpack y.toModel.unpack)).unpack := rfl
  rcases shape_of_isFinite hx with ⟨_, zx⟩ | ⟨_, _, _, _, fx⟩ <;>
    rcases shape_of_isFinite hy with ⟨_, zy⟩ | ⟨_, _, _, _, fy⟩
  case inl.inl s t =>
    -- the sum of two zeros may have the other sign, so that only the places are the same
    rw [unfolded, toRat_eq_zero zx, toRat_eq_zero zy, add_zero, rank_nearest_zero, zx, zy]
    cases s <;> cases t <;> exact place_pack_zero _
  case inl.inr =>
    rw [toRat_eq_zero zx, zero_add, rank_nearest hy, unfolded, zx, rank, fy]
    exact congrArg place (canonical_of_unpack fy).unpack_pack
  case inr.inl =>
    rw [toRat_eq_zero zy, add_zero, rank_nearest hx, unfolded, zy, rank, fx]
    exact congrArg place (canonical_of_unpack fx).unpack_pack
  case inr.inr =>
    rw [unfolded, toRat, toRat, fx, fy, nearest_add]
    rfl

theorem rank_mul (hx : x.isFinite = true) (hy : y.isFinite = true) :
    rank (x * y) = rank (nearest (toRat x * toRat y)) := by
  have unfolded : rank (x * y) =
      place (Float.Model.pack (.mul .binary64 x.toModel.unpack y.toModel.unpack)).unpack := rfl
  rcases shape_of_isFinite hx with ⟨_, zx⟩ | ⟨_, _, _, _, fx⟩ <;>
    rcases shape_of_isFinite hy with ⟨_, zy⟩ | ⟨_, _, _, _, fy⟩
  case inl.inl =>
    rw [toRat_eq_zero zx, zero_mul, rank_nearest_zero, unfolded, zx, zy]
    exact place_pack_zero _
  case inl.inr =>
    rw [toRat_eq_zero zx, zero_mul, rank_nearest_zero, unfolded, zx, fy]
    exact place_pack_zero _
  case inr.inl =>
    rw [toRat_eq_zero zy, mul_zero, rank_nearest_zero, unfolded, zy, fx]
    exact place_pack_zero _
  case inr.inr =>
    rw [unfolded, toRat, toRat, fx, fy,
      nearest_mul (canonical_of_unpack fx) (canonical_of_unpack fy)]
    rfl

/-- Only the two zeros share their place. -/
theorem eq_or_zero_of_place_eq {a b : UnpackedFloat} (h : place a = place b) :
    a = b ∨ ∃ s t, a = .zero s ∧ b = .zero t := by
  cases a with
  | notANumber =>
    cases b with
    | notANumber => exact .inl rfl
    | zero _ => simp [place] at h
    | infinity t | finite t _ _ _ => cases t <;> simp [place] at h
  | infinity s =>
    cases b with
    | notANumber | zero _ => cases s <;> simp [place] at h
    | infinity t | finite t _ _ _ => cases s <;> cases t <;> simp [place] at h ⊢
  | zero s =>
    cases b with
    | notANumber => simp [place] at h
    | zero t => exact .inr ⟨s, t, rfl, rfl⟩
    | infinity t | finite t _ _ _ => cases t <;> simp [place] at h
  | finite s _ _ _ =>
    cases b with
    | notANumber | zero _ => cases s <;> simp [place] at h
    | infinity t => cases s <;> cases t <;> simp [place] at h
    | finite t _ _ _ =>
      left
      cases s <;> cases t <;> simp [place] at h ⊢ <;> tauto

/-- What does not tell the zeros apart depends on the place alone. -/
theorem eq_of_rank_eq {α : Type} {f : UnpackedFloat → α}
    (zeros : ∀ s t, f (.zero s) = f (.zero t)) (h : rank x = rank y) :
    f x.toModel.unpack = f y.toModel.unpack := by
  rcases eq_or_zero_of_place_eq h with same | ⟨s, t, zx, zy⟩
  · rw [same]
  · rw [zx, zy, zeros s t]

theorem toRat_eq_of_rank_eq (h : rank x = rank y) : toRat x = toRat y :=
  eq_of_rank_eq (fun _ _ => rfl) h

theorem isFinite_eq_of_rank_eq (h : rank x = rank y) : x.isFinite = y.isFinite :=
  eq_of_rank_eq (f := UnpackedFloat.isFinite) (fun _ _ => rfl) h

theorem isNaN_eq_of_rank_eq (h : rank x = rank y) : x.isNaN = y.isNaN :=
  eq_of_rank_eq (f := UnpackedFloat.isNaN) (fun _ _ => rfl) h

end Statline.Double
