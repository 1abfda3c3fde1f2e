import Statline.Operator
import Statline.Proofs.Double.Extremes
import Statline.Proofs.Double.Folds

namespace Statline.Operator

open Double

/-- Whether the operator adds or multiplies any of the values, short of all of them, without having
to round. The operators that choose among their values never round. -/
def Exact : Operator → List Float → Prop
  | sum, values => ∀ part : List Float, part.Sublist values → part.length < values.length →
      Representable (part.map toRat).sum
  | multiply, values => ∀ part : List Float, part.Sublist values → part.length < values.length →
      Representable (part.map toRat).prod
  | _, _ => True

variable {operator : Operator} {values others : List Float}

/-- Two values can only be combined in a last step. -/
theorem exact_of_length_le_two (finite : ∀ value ∈ values, value.isFinite = true)
    (h : values.length ≤ 2) : operator.Exact values := by
  cases operator with
  | max | min | average | intersect => trivial
  | sum =>
    intro part within short
    match part with
    | [] => exact ⟨0.0, rfl, rfl⟩
    | [value] => exact ⟨value, finite value (within.subset (by simp)), by simp⟩
    | _ :: _ :: _ => simp at short; omega
  | multiply =>
    intro part within short
    match part with
    | [] => exact ⟨1.0, rfl, by decide +kernel⟩
    | [value] => exact ⟨value, finite value (within.subset (by simp)), by simp⟩
    | _ :: _ :: _ => simp at short; omega

/-- Whole numbers that do not outgrow 53 bits together are added without rounding. -/
theorem exact_of_whole (whole : ∀ value ∈ values, ∃ n : ℤ, toRat value = n)
    (bounded : (values.map fun value => |toRat value|).sum < 2 ^ 53) :
    Operator.sum.Exact values := by
  intro part within _
  have total : (part.map toRat).sum ∈ (Int.castAddHom ℚ).range := by
    refine list_sum_mem fun q listed => ?_
    obtain ⟨value, member, rfl⟩ := List.mem_map.mp listed
    obtain ⟨n, same⟩ := whole value (within.subset member)
    exact ⟨n, same.symm⟩
  have size : |(part.map toRat).sum| ≤ (values.map fun value => |toRat value|).sum := by
    calc |(part.map toRat).sum| ≤ ((part.map toRat).map fun q => |q|).sum :=
          List.le_sum_of_subadditive _ abs_zero.le abs_add_le _
      _ = (part.map fun value => |toRat value|).sum := by rw [List.map_map]; rfl
      _ ≤ (values.map fun value => |toRat value|).sum :=
          (within.map _).sum_le_sum fun q listed => by
            obtain ⟨value, _, rfl⟩ := List.mem_map.mp listed
            exact abs_nonneg _
  obtain ⟨n, eq⟩ := total
  rw [← eq] at size ⊢
  have bound : |(n : ℚ)| < 2 ^ 53 := size.trans_lt bounded
  exact representable_intCast (by exact_mod_cast bound)

/-- An operator that is reported commutative does not depend on the order of the values, as long as
nothing but its last step has to round. -/
theorem combine_beq_of_perm (commutative : operator.isCommutative = true)
    (finite : ∀ value ∈ values, value.isFinite = true) (exact : operator.Exact values)
    (perm : values.Perm others) : (operator.combine values == operator.combine others) = true := by
  cases values with
  | nil =>
    obtain rfl := perm.nil_eq
    have empty : operator.combine [] = 0.0 := rfl
    rw [empty]
    exact beq_iff.mpr ⟨by decide, by decide, rfl⟩
  | cons first rest =>
    cases others with
    | nil => cases perm.eq_nil
    | cons second others =>
      have numbers : ∀ value ∈ first :: rest, value.isNaN = false :=
        fun value listed => isNaN_of_isFinite (finite value listed)
      cases operator with
      | sum => exact beq_sum_of_perm finite exact perm
      | max => exact beq_foldl_larger_of_perm numbers perm
      | min => exact beq_foldl_smaller_of_perm numbers perm
      | multiply => exact beq_product_of_perm finite exact perm
      | average | intersect => cases commutative

/-- The last sum, and only that, is rounded, in either order. -/
theorem combine_beq_of_last_rounded :
    Operator.sum.isCommutative = true ∧
      (∀ value ∈ [4503599627370496.0, 4503599627370496.0, 1.0], value.isFinite = true) ∧
      Operator.sum.Exact [4503599627370496.0, 4503599627370496.0, 1.0] ∧
      [4503599627370496.0, 4503599627370496.0, 1.0].Perm
        [1.0, 4503599627370496.0, 4503599627370496.0] ∧
      (Operator.sum.combine [4503599627370496.0, 4503599627370496.0, 1.0] ==
        Operator.sum.combine [1.0, 4503599627370496.0, 4503599627370496.0]) = true := by
  have finite : ∀ value ∈ [4503599627370496.0, 4503599627370496.0, 1.0],
      value.isFinite = true := by decide +kernel
  have exact : Operator.sum.Exact [4503599627370496.0, 4503599627370496.0, 1.0] := by
    have parts : ∀ part ∈ [4503599627370496.0, 4503599627370496.0, 1.0].sublists, part.length < 3 →
        (Double.sum part).isFinite = true ∧
          toRat (Double.sum part) = (part.map toRat).sum := by decide +kernel
    intro part within short
    exact ⟨Double.sum part, parts part (List.mem_sublists.mpr within) short⟩
  have perm : [4503599627370496.0, 4503599627370496.0, 1.0].Perm
      [1.0, 4503599627370496.0, 4503599627370496.0] := by decide +kernel
  exact ⟨rfl, finite, exact, perm, combine_beq_of_perm rfl finite exact perm⟩

/-- Otherwise the order can show: here adding up overflows in one order, and not in the other. -/
theorem not_combine_beq_of_perm :
    ¬∀ (operator : Operator) (values others : List Float), operator.isCommutative = true →
      (∀ value ∈ values, value.isFinite = true) → values.Perm others →
        (operator.combine values == operator.combine others) = true := by
  intro law
  have same := law .sum [1e308, 1e308, -1e308] [1e308, -1e308, 1e308] rfl (by decide +kernel)
    (by decide +kernel)
  exact absurd same (by decide +kernel)

end Statline.Operator
