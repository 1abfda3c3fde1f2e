import Statline.Document.Text
import Statline.Proofs.InPlace
import Statline.Proofs.Rule.History

namespace Statline.RuleBook

/-- A change of the rules, documents included. -/
inductive Edit where
  | set (dimension : String) (rule : Rule)
  | remove (dimension : String)
  | clear
  | apply (newer : RuleBook)
  | load (text : String)

/-- What an edit gives back. -/
inductive Answer where
  | done
  | removed (rule : Option Rule)
  | written (count : Nat)
deriving DecidableEq

def edit (book : RuleBook) : Edit → Except Fault (Answer × RuleBook)
  | .set dimension rule => (book.set dimension rule).map (.done, ·)
  | .remove dimension => .ok (.removed (book.rule? dimension), book.remove dimension)
  | .clear => .ok (.done, empty)
  | .apply newer => (book.applyCounted newer).map (Prod.map .written id)
  | .load text => (book.loadCounted text).map (Prod.map .written id)

def write (book : RuleBook) (entry : String × Rule) : RuleBook :=
  ⟨book.rules.insert entry.1 entry.2⟩

/-- Rule after rule is written, but not before all of them have been checked. -/
def writeAll (newer : RuleBook) : InPlace RuleBook Answer := do
  ofExcept newer.validate
  newer.rules.entries.forM fun entry => modify (write · entry)
  return .written newer.rules.size

/-- The edit as it is made in a book that is shared. -/
def Edit.inPlace : Edit → InPlace RuleBook Answer
  | .set dimension rule => do
    ofExcept (validateEntry dimension rule)
    modify (write · (dimension, rule))
    return .done
  | .remove dimension => do
    let rule := (← get).rule? dimension
    modify (·.remove dimension)
    return .removed rule
  | .clear => do
    modify fun _ => empty
    return .done
  | .apply newer => writeAll newer
  | .load text => do
    writeAll (← ofExcept (Document.load RuleBook text))

variable {book newer next : RuleBook} {made : Edit} {answer : Answer} {text dimension : String}
  {rule : Rule}

theorem foldl_write (book : RuleBook) (entries : List (String × Rule)) :
    entries.foldl write book =
      ⟨entries.foldl (fun rules entry => rules.insert entry.1 entry.2) book.rules⟩ := by
  induction entries generalizing book with
  | nil => rfl
  | cons entry rest ih => exact ih (book.write entry)

theorem run_writeAll (newer book : RuleBook) :
    (writeAll newer).run book = settleWith book (book.edit (.apply newer)) := by
  rw [writeAll, edit, applyCounted, apply]
  cases newer.validate with
  | error fault => rfl
  | ok valid =>
    change (newer.rules.entries.forM (fun entry => modify (write · entry)) >>= fun _ =>
      pure (.written newer.rules.size) : InPlace RuleBook Answer).run book = _
    rw [run_bind, run_forM_modify, foldl_write]
    rfl

/-- Nothing is written by an edit that fails. -/
theorem run_inPlace (made : Edit) (book : RuleBook) :
    made.inPlace.run book = settleWith book (book.edit made) := by
  cases made with
  | set dimension rule =>
    rw [Edit.inPlace, edit, set]
    cases validateEntry dimension rule <;> rfl
  | remove dimension => rfl
  | clear => rfl
  | apply newer => exact run_writeAll newer book
  | load text =>
    rw [Edit.inPlace, edit, loadCounted]
    cases Document.load RuleBook text with
    | error fault => rfl
    | ok newer => exact run_writeAll newer book

theorem applyCounted_eq_ok {count : Nat} :
    book.applyCounted newer = .ok (count, next) ↔
      book.apply newer = .ok next ∧ count = newer.rules.size := by
  rw [applyCounted, map_eq_ok]
  constructor
  · rintro ⟨_, applied, ⟨⟩⟩
    exact ⟨applied, rfl⟩
  · rintro ⟨applied, rfl⟩
    exact ⟨next, applied, rfl⟩

theorem validate_of_edit (h : book.validate = .ok ())
    (changed : book.edit made = .ok (answer, next)) : next.validate = .ok () := by
  cases made with
  | set dimension rule =>
    obtain ⟨_, changed, ⟨⟩⟩ := map_eq_ok.mp changed
    exact validate_of_set h changed
  | remove dimension => cases changed; exact validate_remove h dimension
  | clear => cases changed; rfl
  | apply newer =>
    obtain ⟨⟨_, _⟩, counted, ⟨⟩⟩ := map_eq_ok.mp changed
    exact validate_of_apply h (applyCounted_eq_ok.mp counted).1
  | load text =>
    obtain ⟨⟨_, _⟩, counted, ⟨⟩⟩ := map_eq_ok.mp changed
    obtain ⟨newer, _, counted⟩ := bind_eq_ok.mp counted
    exact validate_of_apply h (applyCounted_eq_ok.mp counted).1

theorem ext_rule? {other : RuleBook}
    (h : ∀ dimension, book.rule? dimension = other.rule? dimension) : book = other :=
  congrArg RuleBook.mk (Table.ext_get? h)

theorem apply_eq_ok_iff_or :
    book.apply newer = .ok next ↔ newer.validate = .ok () ∧
      ∀ dimension, next.rule? dimension = (newer.rule? dimension).or (book.rule? dimension) := by
  rw [apply_eq_ok]
  refine and_congr_right fun _ => ⟨?_, fun overwritten => ?_⟩
  · rintro rfl
    exact book.rules.get?_merge newer.rules
  · exact ext_rule? fun dimension =>
      (book.rules.get?_merge newer.rules dimension).trans (overwritten dimension).symm

/-- The rules of a document are written over those in force and counted, whether or not they take
the place of others. -/
theorem edit_load_eq_ok :
    book.edit (.load text) = .ok (answer, next) ↔
      ∃ newer, Document.load RuleBook text = .ok newer ∧ newer.validate = .ok () ∧
        answer = .written newer.rules.size ∧
        ∀ dimension, next.rule? dimension = (newer.rule? dimension).or (book.rule? dimension) := by
  constructor
  · intro changed
    obtain ⟨⟨_, _⟩, counted, ⟨⟩⟩ := map_eq_ok.mp changed
    obtain ⟨newer, read, counted⟩ := bind_eq_ok.mp counted
    obtain ⟨applied, rfl⟩ := applyCounted_eq_ok.mp counted
    obtain ⟨valid, overwritten⟩ := apply_eq_ok_iff_or.mp applied
    exact ⟨newer, read, valid, rfl, overwritten⟩
  · rintro ⟨newer, read, valid, rfl, overwritten⟩
    have applied := apply_eq_ok_iff_or.mpr ⟨valid, overwritten⟩
    have counted := applyCounted_eq_ok.mpr ⟨applied, rfl⟩
    exact map_eq_ok.mpr ⟨_, bind_eq_ok.mpr ⟨newer, read, counted⟩, rfl⟩

/-- A document that is accepted is answered with the number of its rules. -/
theorem answer_of_load (h : ((Edit.load text).inPlace.run book).1 = .ok answer) :
    ∃ newer, Document.load RuleBook text = .ok newer ∧ answer = .written newer.rules.size := by
  rw [run_inPlace, settleWith_fst] at h
  obtain ⟨⟨_, next⟩, edited, rfl⟩ := map_eq_ok.mp h
  obtain ⟨newer, read, _, written, _⟩ := edit_load_eq_ok.mp edited
  exact ⟨newer, read, written⟩

/-- A rule that may be in force. -/
structure Lawful (dimension : String) (rule : Rule) : Prop where
  named : Text.isBlank dimension = false
  min_isFinite : rule.clampDefault.min.isFinite = true
  max_isFinite : rule.clampDefault.max.isFinite = true
  min_le_max : rule.clampDefault.min ≤ rule.clampDefault.max
  combines : rule.usePipeline = false → rule.operator.isSome = true

theorem lawful_of_rule? (h : book.validate = .ok ()) (held : book.rule? dimension = some rule) :
    Lawful dimension rule := by
  obtain ⟨named, valid⟩ := validateEntry_eq_ok.mp (validate_eq_ok.mp h dimension rule held)
  obtain ⟨combines, clamp⟩ := Rule.validate_eq_ok.mp valid
  obtain ⟨min_isFinite, max_isFinite, min_le_max⟩ := Caps.isValid_iff.mp clamp
  exact ⟨named, min_isFinite, max_isFinite, min_le_max, combines⟩

end Statline.RuleBook
