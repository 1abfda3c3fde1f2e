import Statline.Proofs.Double.Order

namespace Statline.Double

variable {x y : Float} {xs ys : List Float}

/-- Where each step picks one of two numbers, to which both stand in a relation, the last pick is
one of the numbers, to which all of them stand in it. -/
theorem foldl_pick {r : Float → Float → Prop} {pick : Float → Float → Float}
    (refl : ∀ x, x.isNaN = false → r x x) (trans : ∀ x y z, r x y → r y z → r x z)
    (chosen : ∀ x y, pick x y = x ∨ pick x y = y)
    (both : ∀ x y, x.isNaN = false → y.isNaN = false → r x (pick x y) ∧ r y (pick x y))
    {first : Float} {rest : List Float} (numbers : ∀ x ∈ first :: rest, x.isNaN = false) :
    rest.foldl pick first ∈ first :: rest ∧
      ∀ x ∈ first :: rest, r x (rest.foldl pick first) := by
  induction rest generalizing first with
  | nil => simpa using refl first (numbers first List.mem_cons_self)
  | cons second rest ih =>
    obtain ⟨hf, others⟩ := List.forall_mem_cons.mp numbers
    obtain ⟨hs, hr⟩ := List.forall_mem_cons.mp others
    obtain ⟨left, right⟩ := both first second hf hs
    have number : (pick first second).isNaN = false := by
      rcases chosen first second with same | same <;> rwa [same]
    obtain ⟨member, bound⟩ := ih (List.forall_mem_cons.mpr ⟨number, hr⟩)
    rw [List.foldl_cons]
    refine ⟨?_, fun x listed => ?_⟩
    · rcases List.mem_cons.mp member with same | later
      · rw [same]
        rcases chosen first second with picked | picked <;> simp [picked]
      · exact List.mem_cons_of_mem _ (List.mem_cons_of_mem _ later)
    · have last := bound _ List.mem_cons_self
      rcases List.mem_cons.mp listed with rfl | listed
      · exact trans _ _ _ left last
      · rcases List.mem_cons.mp listed with rfl | later
        · exact trans _ _ _ right last
        · exact bound x (List.mem_cons_of_mem _ later)

theorem isGreatest_foldl_larger {first : Float} {rest : List Float}
    (numbers : ∀ x ∈ first :: rest, x.isNaN = false) :
    IsGreatest {x | x ∈ first :: rest} (rest.foldl larger first) :=
  foldl_pick (r := fun x y => x ≤ y) (fun _ => le_refl) (fun _ _ _ => le_trans)
    (fun x y => larger_of (Q := fun z => z = x ∨ z = y) (.inl rfl) (.inr rfl))
    (fun _ _ => le_larger) numbers

theorem isLeast_foldl_smaller {first : Float} {rest : List Float}
    (numbers : ∀ x ∈ first :: rest, x.isNaN = false) :
    IsLeast {x | x ∈ first :: rest} (rest.foldl smaller first) :=
  foldl_pick (r := fun x y => y ≤ x) (fun _ => le_refl)
    (fun _ _ _ above below => le_trans below above)
    (fun x y => smaller_of (Q := fun z => z = x ∨ z = y) (.inl rfl) (.inr rfl))
    (fun _ _ => smaller_le) numbers

/-- Whichever of equal numbers is given as the greatest, it is the same number. -/
theorem beq_of_isGreatest {s : Set Float} (hx : IsGreatest s x) (hy : IsGreatest s y) :
    (x == y) = true :=
  beq_of_le_of_le (hy.2 hx.1) (hx.2 hy.1)

theorem beq_of_isLeast {s : Set Float} (hx : IsLeast s x) (hy : IsLeast s y) : (x == y) = true :=
  beq_of_le_of_le (hx.2 hy.1) (hy.2 hx.1)

section perm

variable {first second : Float} {rest others : List Float}
  (numbers : ∀ x ∈ first :: rest, x.isNaN = false)
  (perm : (first :: rest).Perm (second :: others))

include numbers perm

theorem beq_foldl_larger_of_perm :
    (rest.foldl larger first == others.foldl larger second) = true := by
  have greatest := isGreatest_foldl_larger numbers
  have again : IsGreatest {x | x ∈ second :: others} (others.foldl larger second) :=
    isGreatest_foldl_larger fun x listed => numbers x (perm.mem_iff.mpr listed)
  simp only [perm.mem_iff] at greatest
  exact beq_of_isGreatest greatest again

theorem beq_foldl_smaller_of_perm :
    (rest.foldl smaller first == others.foldl smaller second) = true := by
  have least := isLeast_foldl_smaller numbers
  have again : IsLeast {x | x ∈ second :: others} (others.foldl smaller second) :=
    isLeast_foldl_smaller fun x listed => numbers x (perm.mem_iff.mpr listed)
  simp only [perm.mem_iff] at least
  exact beq_of_isLeast least again

end perm

end Statline.Double
