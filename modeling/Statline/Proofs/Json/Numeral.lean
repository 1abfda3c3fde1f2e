import Mathlib.Data.List.TakeWhile
import Statline.Json.Printer
import Statline.Json.Reader

namespace Statline.Json

variable {α β : Type} {text rest after run : List Char} {c : Char}

/-- What ends a number: nothing that could go on with it. -/
def Stops (after : List Char) : Prop :=
  ∀ c ∈ after.head?, c.isDigit = false ∧ c ≠ '.' ∧ c ≠ 'e' ∧ c ≠ 'E'

/-- What is cut off stays the same where the text is followed by the end of a number. -/
def Stable (cut : List Char → Option (α × List Char)) : Prop :=
  ∀ text taken rest, cut text = some (taken, rest) →
    rest <:+ text ∧ ∀ after, Stops after → cut (text ++ after) = some (taken, rest ++ after)

namespace Stable

variable {cut : List Char → Option (α × List Char)}

theorem bind {next : α → List Char → Option (β × List Char)} (first : Stable cut)
    (second : ∀ taken, Stable (next taken)) :
    Stable fun text => (cut text).bind fun (taken, rest) => next taken rest := by
  intro text both rest h
  obtain ⟨⟨taken, between⟩, first_eq, second_eq⟩ := Option.bind_eq_some_iff.mp h
  obtain ⟨firstSuffix, firstAfter⟩ := first _ _ _ first_eq
  obtain ⟨secondSuffix, secondAfter⟩ := second _ _ _ _ second_eq
  refine ⟨secondSuffix.trans firstSuffix, fun after stops => ?_⟩
  simp only [firstAfter after stops, Option.bind_some, secondAfter after stops]

theorem map (h : Stable cut) (f : α → β) :
    Stable fun text => (cut text).map fun (taken, rest) => (f taken, rest) := by
  intro text taken rest same
  obtain ⟨⟨old, between⟩, old_eq, both⟩ := Option.map_eq_some_iff.mp same
  cases both
  obtain ⟨suffix, onward⟩ := h _ _ _ old_eq
  exact ⟨suffix, fun after stops => by simp only [onward after stops, Option.map_some]⟩

theorem pure (taken : α) : Stable fun text => some (taken, text) := by
  rintro text _ _ ⟨⟩
  exact ⟨List.suffix_rfl, fun after _ => rfl⟩

/-- The first character decides how to go on, either behind it or from it on. -/
theorem of_head
    (blank : ∀ taken rest, cut [] = some (taken, rest) →
      rest = [] ∧ ∀ after, Stops after → cut after = some (taken, after))
    (head : ∀ c, ∃ next, Stable next ∧
      ((∀ rest, cut (c :: rest) = next rest) ∨ ∀ rest, cut (c :: rest) = next (c :: rest))) :
    Stable cut := by
  intro text taken rest h
  cases text with
  | nil =>
    obtain ⟨rfl, onward⟩ := blank taken rest h
    exact ⟨List.suffix_rfl, onward⟩
  | cons c text =>
    obtain ⟨next, stable, behind | ahead⟩ := head c
    · obtain ⟨suffix, onward⟩ := stable text taken rest (behind text ▸ h)
      refine ⟨suffix.trans (List.suffix_cons c text), fun after stops => ?_⟩
      rw [List.cons_append, behind, onward after stops]
    · obtain ⟨suffix, onward⟩ := stable (c :: text) taken rest (ahead text ▸ h)
      refine ⟨suffix, fun after stops => ?_⟩
      rw [List.cons_append, ahead, ← List.cons_append, onward after stops]

end Stable

theorem digits_append (some_digit : run ≠ []) (all : ∀ c ∈ run, c.isDigit)
    (stop : ∀ c ∈ rest.head?, c.isDigit = false) : digits (run ++ rest) = some (run, rest) := by
  have spent : rest.takeWhile Char.isDigit = [] := by
    cases rest with
    | nil => rfl
    | cons c rest => simp [stop c rfl]
  simp [digits, List.takeWhile_append_of_pos all, spent, some_digit]

theorem digits_eq_some_iff :
    digits text = some (run, rest) ↔
      run ≠ [] ∧ run ++ rest = text ∧ (∀ c ∈ run, c.isDigit) ∧
        ∀ c ∈ rest.head?, c.isDigit = false := by
  constructor
  · intro h
    simp only [digits, List.isEmpty_iff] at h
    split at h
    next => cases h
    next some_digit =>
      cases h
      have whole := List.prefix_iff_eq_append.mp (List.takeWhile_prefix Char.isDigit (l := text))
      have tail : text.drop (text.takeWhile Char.isDigit).length = text.dropWhile Char.isDigit :=
        List.append_cancel_left (whole.trans List.takeWhile_append_dropWhile.symm)
      refine ⟨some_digit, whole, fun c member => List.mem_takeWhile_imp member, ?_⟩
      intro c first
      have stop := List.head?_dropWhile_not Char.isDigit text
      rw [tail, Option.mem_def] at first
      rwa [first] at stop
  · rintro ⟨some_digit, rfl, all, stop⟩
    exact digits_append some_digit all stop

theorem stable_digits : Stable digits := by
  intro text run rest h
  obtain ⟨some_digit, rfl, all, stop⟩ := digits_eq_some_iff.mp h
  refine ⟨List.suffix_append run rest, fun after stops => ?_⟩
  rw [List.append_assoc]
  refine digits_append some_digit all ?_
  cases rest with
  | nil => exact fun c first => (stops c first).1
  | cons c rest => exact stop

theorem fraction_of_head?_ne (h : text.head? ≠ some '.') : fraction text = some (none, text) := by
  unfold fraction
  split
  next => simp at h
  next => rfl

theorem stable_fraction : Stable fraction := by
  refine .of_head ?_ fun c => ?_
  · rintro _ _ ⟨⟩
    exact ⟨rfl, fun after stops => fraction_of_head?_ne fun same => (stops '.' same).2.1 rfl⟩
  · by_cases point : c = '.'
    · exact ⟨_, stable_digits.map some, .inl fun rest => by rw [point]; rfl⟩
    · exact ⟨_, .pure none, .inr fun rest => fraction_of_head?_ne (by simpa using point)⟩

theorem stable_exponentDigits (negative : Bool) : Stable (exponentDigits negative) :=
  stable_digits.map fun run => some (negative, run)

def signedExponent (text : List Char) : Option (Option (Bool × List Char) × List Char) :=
  match text with
  | '+' :: rest => exponentDigits false rest
  | '-' :: rest => exponentDigits true rest
  | _ => exponentDigits false text

theorem stable_signedExponent : Stable signedExponent := by
  refine .of_head (fun _ _ nothing => by cases nothing) fun c => ?_
  by_cases plus : c = '+'
  · exact ⟨_, stable_exponentDigits false, .inl fun rest => by rw [plus]; rfl⟩
  by_cases minus : c = '-'
  · exact ⟨_, stable_exponentDigits true, .inl fun rest => by rw [minus]; rfl⟩
  refine ⟨_, stable_exponentDigits false, .inr fun rest => ?_⟩
  rw [signedExponent] <;> simp [plus, minus]

theorem exponent_of_head?_ne (h : ∀ c ∈ text.head?, c ≠ 'e' ∧ c ≠ 'E') :
    exponent text = some (none, text) := by
  unfold exponent
  split
  next => simp at h
  next => simp at h
  next => rfl

theorem stable_exponent : Stable exponent := by
  refine .of_head ?_ fun c => ?_
  · rintro _ _ ⟨⟩
    exact ⟨rfl, fun after stops => exponent_of_head?_ne fun c first => (stops c first).2.2⟩
  · by_cases mark : c = 'e' ∨ c = 'E'
    · refine ⟨_, stable_signedExponent, .inl fun rest => ?_⟩
      rcases mark with rfl | rfl <;> rfl
    · exact ⟨_, .pure none, .inr fun rest => exponent_of_head?_ne (by simpa using mark)⟩

theorem stable_whole : Stable whole := by
  have kept (run : List Char) : Stable fun rest =>
      if run.length ≠ 1 && run.head? = some '0' then none else some (run, rest) := by
    split
    next => rintro _ _ _ ⟨⟩
    next => exact .pure run
  exact stable_digits.bind kept

/-- A number behind its sign. -/
def unsigned (negative : Bool) (text : List Char) : Option (Numeral × List Char) := do
  let (whole, rest) ← whole text
  let (fraction, rest) ← fraction rest
  let (exponent, rest) ← exponent rest
  return (⟨negative, whole, fraction, exponent⟩, rest)

theorem stable_unsigned (negative : Bool) : Stable (unsigned negative) := by
  have complete := fun whole fraction => stable_exponent.bind fun exponent =>
    Stable.pure (⟨negative, whole, fraction, exponent⟩ : Numeral)
  have all := stable_whole.bind fun whole => stable_fraction.bind fun fraction =>
    complete whole fraction
  exact all

theorem numeral_of_head?_ne (h : text.head? ≠ some '-') : numeral text = unsigned false text := by
  unfold numeral
  split
  next sign =>
    split at sign
    next => simp at h
    next =>
      cases sign
      rfl

theorem stable_numeral : Stable numeral := by
  refine .of_head (fun _ _ nothing => by cases nothing) fun c => ?_
  by_cases minus : c = '-'
  · exact ⟨_, stable_unsigned true, .inl fun rest => by rw [minus]; rfl⟩
  · exact ⟨_, stable_unsigned false, .inr fun rest => numeral_of_head?_ne (by simpa using minus)⟩

end Statline.Json
