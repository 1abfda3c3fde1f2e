import Statline.Proofs.Caps.Range
import Statline.Proofs.Except
import Statline.Proofs.Table
import Statline.Rule

namespace Statline

theorem Rule.validate_eq_ok {rule : Rule} {dimension : String} :
    rule.validate dimension = .ok () ↔
      (rule.usePipeline = false → rule.operator.isSome = true) ∧
        rule.clampDefault.isValid = true := by
  unfold validate
  dsimp only
  split
  next lacking =>
    obtain ⟨direct, absent⟩ : rule.usePipeline = false ∧ rule.operator = none := by
      simpa using lacking
    exact ⟨nofun, fun h => by simpa [absent] using h.1 direct⟩
  next supplied =>
    have supplied : rule.usePipeline = false → rule.operator.isSome = true := by
      simpa [Option.isSome_iff_ne_none] using supplied
    exact Caps.checked_bind_eq_ok.trans (and_iff_right supplied).symm

namespace RuleBook

inductive Call where
  | set (dimension : String) (rule : Rule)
  | remove (dimension : String)
  | clear
  | apply (newer : RuleBook)

/-- The book after a call; a refused change leaves it as it was. -/
def call (book : RuleBook) : Call → RuleBook
  | .set dimension rule => (book.set dimension rule).toOption.getD book
  | .remove dimension => book.remove dimension
  | .clear => empty
  | .apply newer => (book.apply newer).toOption.getD book

def after (calls : List Call) : RuleBook :=
  calls.foldl call empty

variable {book newer next : RuleBook} {dimension : String} {rule : Rule}

theorem validateEntry_eq_ok :
    validateEntry dimension rule = .ok () ↔
      Text.isBlank dimension = false ∧ rule.validate dimension = .ok () := by
  unfold validateEntry
  split
  next blank => exact ⟨nofun, fun h => absurd blank (by simp [h.1])⟩
  next named => exact (and_iff_right (by simpa using named)).symm

theorem validate_eq_ok :
    book.validate = .ok () ↔
      book.rules.Every fun dimension rule => validateEntry dimension rule = .ok () := by
  simp only [validate, forM_eq_ok, Prod.forall, Table.Every, Table.get?_eq_some_iff]

theorem apply_eq_ok :
    book.apply newer = .ok next ↔
      newer.validate = .ok () ∧ ⟨book.rules.merge newer.rules⟩ = next :=
  check_pure_eq_ok

theorem validate_of_set (h : book.validate = .ok ())
    (changed : book.set dimension rule = .ok next) : next.validate = .ok () := by
  obtain ⟨valid, rfl⟩ := check_pure_eq_ok.mp changed
  exact validate_eq_ok.mpr ((validate_eq_ok.mp h).insert valid)

theorem validate_of_apply (h : book.validate = .ok ()) (changed : book.apply newer = .ok next) :
    next.validate = .ok () := by
  obtain ⟨valid, rfl⟩ := apply_eq_ok.mp changed
  exact validate_eq_ok.mpr ((validate_eq_ok.mp h).merge (validate_eq_ok.mp valid))

theorem validate_remove (h : book.validate = .ok ()) (dimension : String) :
    (book.remove dimension).validate = .ok () :=
  validate_eq_ok.mpr ((validate_eq_ok.mp h).erase dimension)

theorem validate_call (h : book.validate = .ok ()) (made : Call) :
    (book.call made).validate = .ok () := by
  cases made with
  | set dimension rule =>
    exact getD_of (P := fun book : RuleBook => book.validate = .ok ()) h
      fun next => validate_of_set h
  | remove dimension => exact validate_remove h dimension
  | clear => rfl
  | apply newer =>
    exact getD_of (P := fun book : RuleBook => book.validate = .ok ()) h
      fun next => validate_of_apply h

theorem validate_after (calls : List Call) : (after calls).validate = .ok () :=
  List.foldlRecOn (motive := (·.validate = .ok ())) calls call rfl
    fun _ valid made _ => validate_call valid made

theorem isValid_clampDefault (h : book.validate = .ok ())
    (held : book.rule? dimension = some rule) : rule.clampDefault.isValid = true := by
  obtain ⟨_, valid⟩ := validateEntry_eq_ok.mp (validate_eq_ok.mp h dimension rule held)
  exact (Rule.validate_eq_ok.mp valid).2

end RuleBook

end Statline
