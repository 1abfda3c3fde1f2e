import Mathlib
import Statline.Double

namespace Statline.Double

open Float.Model

/-- Where a number stands among all numbers: its sign and class, then its exponent, then its
mantissa. -/
def place : UnpackedFloat → ℤ ×ₗ ℤ ×ₗ ℤ
  | .infinity .negative => toLex (-2, toLex (0, 0))
  | .finite .negative mantissa exponent _ => toLex (-1, toLex (-exponent, -mantissa))
  | .zero _ => toLex (0, toLex (0, 0))
  | .finite .positive mantissa exponent _ => toLex (1, toLex (exponent, mantissa))
  | .infinity .positive => toLex (2, toLex (0, 0))
  | .notANumber => toLex (3, toLex (0, 0))

theorem compare_toLex {α β : Type} [LinearOrder α] [LinearOrder β] (a b : α) (x y : β) :
    compare (toLex (a, x)) (toLex (b, y)) = (compare a b).then (compare x y) := by
  rw [Prod.Lex.compare_def]
  rfl

theorem compare_neg (a b : ℤ) : compare (-a) (-b) = (compare a b).swap := by
  rw [← cmp_eq_compare, ← cmp_eq_compare, cmp_swap]
  exact StrictAnti.cmp_map_eq (fun _ _ h => Int.neg_lt_neg h) a b

theorem compare_cast (a b : ℕ) : compare (a : ℤ) (b : ℤ) = compare a b := by
  rw [← cmp_eq_compare, ← cmp_eq_compare]
  exact StrictMono.cmp_map_eq (fun _ _ h => Int.ofNat_lt.mpr h) a b

theorem compare_eq {a b : UnpackedFloat} (ha : a.isNaN = false) (hb : b.isNaN = false) :
    a.compare b = some (compare (place a) (place b)) := by
  cases a with
  | notANumber => cases ha
  | infinity s =>
    cases b with
    | notANumber => cases hb
    | infinity t => cases s <;> cases t <;> rfl
    | zero t => cases s <;> rfl
    | finite t _ _ _ => cases s <;> cases t <;> rfl
  | zero s =>
    cases b with
    | notANumber => cases hb
    | infinity t => cases t <;> rfl
    | zero t => rfl
    | finite t _ _ _ => cases t <;> rfl
  | finite s _ _ _ =>
    cases b with
    | notANumber => cases hb
    | infinity t => cases s <;> cases t <;> rfl
    | zero t => cases s <;> rfl
    | finite t _ _ _ =>
      -- only two finite numbers of one sign are told apart by their exponents and mantissas
      cases s <;> cases t
      case negative.positive | positive.negative => rfl
      case negative.negative =>
        simp [UnpackedFloat.compare, place, compare_toLex, compare_neg, compare_cast,
          Ordering.swap_then]
      case positive.positive =>
        simp [UnpackedFloat.compare, place, compare_toLex, compare_cast]

theorem compare_eq_none {a b : UnpackedFloat} (h : a.isNaN = true ∨ b.isNaN = true) :
    a.compare b = none := by
  rcases h with h | h
  · cases a with
    | notANumber => rfl
    | _ => cases h
  · cases b with
    | notANumber => cases a <;> rfl
    | _ => cases h

def rank (x : Float) : ℤ ×ₗ ℤ ×ₗ ℤ :=
  place x.toModel.unpack

variable {x y z : Float}

theorem lt_iff : x < y ↔ x.isNaN = false ∧ y.isNaN = false ∧ rank x < rank y := by
  have unfolded : x < y ↔ x.toModel.unpack.compare y.toModel.unpack = some .lt :=
    decide_eq_true_iff.trans beq_iff_eq
  rw [unfolded]
  cases hx : x.isNaN with
  | true => simp [compare_eq_none (.inl hx)]
  | false =>
    cases hy : y.isNaN with
    | true => simp [compare_eq_none (.inr hy)]
    | false => simp [compare_eq hx hy, rank, compare_lt_iff_lt]

theorem le_iff : x ≤ y ↔ x.isNaN = false ∧ y.isNaN = false ∧ rank x ≤ rank y := by
  have unfolded : x ≤ y ↔ (x.toModel.unpack.compare y.toModel.unpack).any (·.isLE) = true :=
    decide_eq_true_iff
  rw [unfolded]
  cases hx : x.isNaN with
  | true => simp [compare_eq_none (.inl hx)]
  | false =>
    cases hy : y.isNaN with
    | true => simp [compare_eq_none (.inr hy)]
    | false => simp [compare_eq hx hy, rank, Ordering.isLE_iff_ne_gt, compare_le_iff_le]

/-- Numbers are equal if they stand at one place, as the two zeros do. -/
theorem beq_iff : (x == y) = true ↔ x.isNaN = false ∧ y.isNaN = false ∧ rank x = rank y := by
  have unfolded : (x == y) = (x.toModel.unpack.compare y.toModel.unpack == some .eq) := rfl
  rw [unfolded, beq_iff_eq]
  cases hx : x.isNaN with
  | true => simp [compare_eq_none (.inl hx)]
  | false =>
    cases hy : y.isNaN with
    | true => simp [compare_eq_none (.inr hy)]
    | false => simp [compare_eq hx hy, rank, compare_eq_iff_eq]

theorem not_lt (hx : x.isNaN = false) (hy : y.isNaN = false) : ¬x < y ↔ y ≤ x := by
  rw [lt_iff, le_iff]
  constructor
  · intro h
    exact ⟨hy, hx, le_of_not_gt fun below => h ⟨hx, hy, below⟩⟩
  · rintro ⟨_, _, above⟩ ⟨_, _, below⟩
    exact above.not_gt below

theorem le_refl (h : x.isNaN = false) : x ≤ x :=
  le_iff.mpr ⟨h, h, le_rfl⟩

theorem le_trans (hxy : x ≤ y) (hyz : y ≤ z) : x ≤ z := by
  obtain ⟨hx, _, xy⟩ := le_iff.mp hxy
  obtain ⟨_, hz, yz⟩ := le_iff.mp hyz
  exact le_iff.mpr ⟨hx, hz, xy.trans yz⟩

theorem beq_of_le_of_le (hxy : x ≤ y) (hyx : y ≤ x) : (x == y) = true := by
  obtain ⟨hx, hy, below⟩ := le_iff.mp hxy
  exact beq_iff.mpr ⟨hx, hy, below.antisymm (le_iff.mp hyx).2.2⟩

theorem isFinite_iff :
    x.isFinite = true ↔ x.isNaN = false ∧ -1 ≤ (ofLex (rank x)).1 ∧ (ofLex (rank x)).1 ≤ 1 := by
  have unfolded : x.isFinite = x.toModel.unpack.isFinite ∧ x.isNaN = x.toModel.unpack.isNaN :=
    ⟨rfl, rfl⟩
  rw [unfolded.1, unfolded.2, rank]
  cases x.toModel.unpack with
  | notANumber => simp [UnpackedFloat.isFinite, UnpackedFloat.isNaN]
  | infinity s => cases s <;> simp [UnpackedFloat.isFinite, place]
  | zero s => simp [UnpackedFloat.isFinite, UnpackedFloat.isNaN, place]
  | finite s _ _ _ =>
    cases s <;> simp [UnpackedFloat.isFinite, UnpackedFloat.isNaN, place]

theorem isNaN_of_isFinite (h : x.isFinite = true) : x.isNaN = false :=
  (isFinite_iff.mp h).1

theorem isFinite_of_le_of_le (hx : x.isFinite = true) (hz : z.isFinite = true) (hxy : x ≤ y)
    (hyz : y ≤ z) : y.isFinite = true := by
  obtain ⟨_, hy, above⟩ := le_iff.mp hxy
  obtain ⟨_, _, below⟩ := le_iff.mp hyz
  refine isFinite_iff.mpr ⟨hy, ?_, ?_⟩
  · exact (isFinite_iff.mp hx).2.1.trans (Prod.Lex.monotone_fst _ _ above)
  · exact (Prod.Lex.monotone_fst _ _ below).trans (isFinite_iff.mp hz).2.2

theorem le_of_lt (h : x < y) : x ≤ y := by
  obtain ⟨hx, hy, below⟩ := lt_iff.mp h
  exact le_iff.mpr ⟨hx, hy, below.le⟩

theorem le_larger (hx : x.isNaN = false) (hy : y.isNaN = false) :
    x ≤ larger x y ∧ y ≤ larger x y := by
  simp only [larger, hx, hy, Bool.false_eq_true, if_false]
  split
  next below => exact ⟨le_of_lt below, le_refl hy⟩
  next above => exact ⟨le_refl hx, (not_lt hx hy).mp above⟩

theorem smaller_le (hx : x.isNaN = false) (hy : y.isNaN = false) :
    smaller x y ≤ x ∧ smaller x y ≤ y := by
  simp only [smaller, hx, hy, Bool.false_eq_true, if_false]
  split
  next below => exact ⟨le_of_lt below, le_refl hy⟩
  next above => exact ⟨le_refl hx, (not_lt hy hx).mp above⟩

/-- What holds of two numbers holds of the larger, which is one of them. -/
theorem larger_of {Q : Float → Prop} (hx : Q x) (hy : Q y) : Q (larger x y) := by
  unfold larger
  split_ifs <;> assumption

theorem smaller_of {Q : Float → Prop} (hx : Q x) (hy : Q y) : Q (smaller x y) := by
  unfold smaller
  split_ifs <;> assumption

/-- Whatever is clamped, an infinite value or no number at all, comes to lie in the window. -/
theorem larger_smaller_within {lo hi : Float} (window : lo ≤ hi) (x : Float) :
    lo ≤ larger (smaller x hi) lo ∧ larger (smaller x hi) lo ≤ hi := by
  obtain ⟨hlo, hhi, _⟩ := le_iff.mp window
  have below : smaller x hi ≤ hi := by
    cases hx : x.isNaN with
    | true =>
      rw [smaller, if_pos hx]
      exact le_refl hhi
    | false => exact (smaller_le hx hhi).2
  have number : (smaller x hi).isNaN = false := (le_iff.mp below).1
  exact ⟨(le_larger number hlo).2, larger_of (Q := (· ≤ hi)) below window⟩

end Statline.Double
