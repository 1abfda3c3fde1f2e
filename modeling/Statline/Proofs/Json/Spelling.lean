import Statline.Proofs.Json.Number
import Statline.Proofs.Json.Text

namespace Statline.Json

def Gap (text : List Char) : Prop := ∀ c ∈ text, isGap c

mutual

/-- The texts of a value. White space may stand in front of items, fields, their values and closing
brackets. -/
inductive Spells : Json → List Char → Prop
  | null : Spells .null ['n', 'u', 'l', 'l']
  | true : Spells (.bool true) ['t', 'r', 'u', 'e']
  | false : Spells (.bool false) ['f', 'a', 'l', 's', 'e']
  | number {number : Numeral} {json : Json} {text : List Char}
      (cut : numeral text = some (number, [])) (same : number.toJson = json) : Spells json text
  | str (text : String) : Spells (.str text) (quote text)
  | noItems : Spells (.arr []) ['[', ']']
  | arr {items : List Json} {text gap : List Char} (h : SpellsItems items text)
      (behind : Gap gap) : Spells (.arr items) ('[' :: (text ++ (gap ++ [']'])))
  | noFields : Spells (.obj []) ['{', '}']
  | obj {fields : List (String × Json)} {text gap : List Char} (h : SpellsFields fields text)
      (behind : Gap gap) : Spells (.obj fields) ('{' :: (text ++ (gap ++ ['}'])))

inductive SpellsItems : List Json → List Char → Prop
  | last {item : Json} {gap text : List Char} (before : Gap gap) (h : Spells item text) :
      SpellsItems [item] (gap ++ text)
  | more {item : Json} {others : List Json} {gap text rest : List Char} (before : Gap gap)
      (h : Spells item text) (onward : SpellsItems others rest) :
      SpellsItems (item :: others) (gap ++ (text ++ ',' :: rest))

inductive SpellsFields : List (String × Json) → List Char → Prop
  | last {name : String} {json : Json} {gap space text : List Char} (before : Gap gap)
      (between : Gap space) (h : Spells json text) :
      SpellsFields [(name, json)] (gap ++ (quote name ++ ':' :: (space ++ text)))
  | more {name : String} {json : Json} {others : List (String × Json)}
      {gap space text rest : List Char} (before : Gap gap) (between : Gap space)
      (h : Spells json text) (onward : SpellsFields others rest) :
      SpellsFields ((name, json) :: others)
        (gap ++ (quote name ++ ':' :: (space ++ (text ++ ',' :: rest))))

end

variable {text rest after gap : List Char} {json item : Json} {list others : List Json}
  {name : String} {entries : List (String × Json)} {budget : Nat}

theorem skipGap_append (h : Gap gap) (text : List Char) : skipGap (gap ++ text) = skipGap text :=
  List.dropWhile_append_of_pos h

theorem value_gap (h : Gap gap) (budget : Nat) (text : List Char) :
    value budget (gap ++ text) = value budget text := by
  cases budget with
  | zero => rfl
  | succ budget => simp only [value, skipGap_append h]

theorem fields_gap (h : Gap gap) (budget : Nat) (text : List Char) :
    fields budget (gap ++ text) = fields budget text := by
  cases budget with
  | zero => rfl
  | succ budget => simp only [fields, skipGap_append h]

theorem value_eq_none (h : skipGap text = ']' :: rest) : value budget text = none := by
  cases budget with
  | zero => rfl
  | succ budget =>
    rw [value, h]
    rfl

theorem skipGap_quote (text : String) (after : List Char) :
    skipGap (quote text ++ after) = '"' :: (text.toList.flatMap escape ++ '"' :: after) := by
  rw [quote, List.cons_append, List.append_assoc]
  rfl

theorem value_quote (budget : Nat) (text : String) (after : List Char) :
    value (budget + 1) (quote text ++ after) = some (.str text, after) := by
  simp only [value, skipGap_quote, string_quoted]
  rfl

theorem value_arr (h : items budget text = some (list, after)) :
    value (budget + 1) ('[' :: text) = some (.arr list, after) := by
  have opening : skipGap ('[' :: text) = '[' :: text := rfl
  have content : ∀ rest, skipGap text ≠ ']' :: rest := by
    intro rest closing
    cases budget with
    | zero => cases h
    | succ budget => simp [items, value_eq_none closing] at h
  simp [value, opening, h]

theorem value_obj (h : fields budget text = some (some entries, after)) :
    value (budget + 1) ('{' :: text) = some (.obj entries, after) := by
  have opening : skipGap ('{' :: text) = '{' :: text := rfl
  have content : ∀ rest, skipGap text ≠ '}' :: rest := by
    intro rest closing
    cases budget with
    | zero => cases h
    | succ budget => simp [fields, closing] at h
  simp [value, opening, h]

theorem items_last (h : value budget text = some (item, rest))
    (closing : skipGap rest = ']' :: after) :
    items (budget + 1) text = some ([item], after) := by
  simp [items, h, closing]

theorem items_more (h : value budget text = some (item, ',' :: rest))
    (onward : items budget rest = some (others, after)) :
    items (budget + 1) text = some (item :: others, after) := by
  simp [items, h, onward, skipGap, isGap]

theorem fields_last (h : value budget text = some (json, rest))
    (closing : skipGap rest = '}' :: after) :
    fields (budget + 1) (quote name ++ ':' :: text) = some (some [(name, json)], after) := by
  have colon : skipGap (':' :: text) = ':' :: text := rfl
  simp [fields, skipGap_quote, string_quoted, colon, h, closing]

theorem fields_more (h : value budget text = some (json, ',' :: rest))
    (onward : fields budget rest = some (some entries, after)) :
    fields (budget + 1) (quote name ++ ':' :: text) =
      some (some ((name, json) :: entries), after) := by
  have colon : skipGap (':' :: text) = ':' :: text := rfl
  have comma : skipGap (',' :: rest) = ',' :: rest := rfl
  simp [fields, skipGap_quote, string_quoted, colon, h, comma, onward]

theorem stops_cons {c : Char} (h : c.isDigit = false ∧ c ≠ '.' ∧ c ≠ 'e' ∧ c ≠ 'E')
    (after : List Char) : Stops (c :: after) := by
  rintro _ ⟨⟩
  exact h

theorem stops_gap_append (behind : Gap gap) (h : Stops after) : Stops (gap ++ after) := by
  cases gap with
  | nil => exact h
  | cons c gap =>
    refine stops_cons ?_ _
    have white := behind c List.mem_cons_self
    simp only [isGap, Bool.or_eq_true, decide_eq_true_eq] at white
    rcases white with ((rfl | rfl) | rfl) | rfl <;> decide

-- Every step spends one of the budget. A bracket pays for the step into what it encloses, a comma
-- for the step to what follows it, so that lists start with one more than their text is long.
mutual

/-- Whatever the white space, each text of a value is read as that value. -/
theorem value_of_spells {json : Json} {text : List Char} (h : Spells json text) :
    ∀ budget after, text.length < budget → Stops after →
      value budget (text ++ after) = some (json, after) := by
  intro budget after room stops
  cases budget with
  | zero => cases room
  | succ budget =>
    cases h with
    | null => rfl
    | true => rfl
    | false => rfl
    | number cut same => exact same ▸ value_of_numeral cut stops budget
    | str text => exact value_quote budget text after
    | noItems => rfl
    | arr h behind =>
      simp only [List.length_cons, List.length_append, List.length_nil] at room
      have content := items_of_spells h budget _ after behind (by omega)
      simpa using value_arr content
    | noFields => rfl
    | obj h behind =>
      simp only [List.length_cons, List.length_append, List.length_nil] at room
      have content := fields_of_spells h budget _ after behind (by omega)
      simpa using value_obj content

theorem items_of_spells {items : List Json} {text : List Char} (h : SpellsItems items text) :
    ∀ budget gap after, Gap gap → text.length + 1 < budget →
      Json.items budget (text ++ (gap ++ ']' :: after)) = some (items, after) := by
  intro budget gap after behind room
  cases budget with
  | zero => cases room
  | succ budget =>
    cases h with
    | last before h =>
      simp only [List.length_append] at room
      rw [List.append_assoc]
      refine items_last ((value_gap before _ _).trans ?_) (skipGap_append behind (']' :: after))
      exact value_of_spells h budget _ (by omega)
        (stops_gap_append behind (stops_cons (by decide) after))
    | more before h onward =>
      simp only [List.length_append, List.length_cons] at room
      simp only [List.append_assoc, List.cons_append]
      refine items_more ((value_gap before _ _).trans ?_)
        (items_of_spells onward budget gap after behind (by omega))
      exact value_of_spells h budget _ (by omega) (stops_cons (by decide) _)

theorem fields_of_spells {fields : List (String × Json)} {text : List Char}
    (h : SpellsFields fields text) :
    ∀ budget gap after, Gap gap → text.length + 1 < budget →
      Json.fields budget (text ++ (gap ++ '}' :: after)) = some (some fields, after) := by
  intro budget gap after behind room
  cases budget with
  | zero => cases room
  | succ budget =>
    cases h with
    | last before between h =>
      simp only [List.length_append, List.length_cons] at room
      simp only [List.append_assoc, List.cons_append, fields_gap before]
      refine fields_last ((value_gap between _ _).trans ?_)
        (skipGap_append behind ('\x7d' :: after))
      exact value_of_spells h budget _ (by omega)
        (stops_gap_append behind (stops_cons (by decide) after))
    | more before between h onward =>
      simp only [List.length_append, List.length_cons] at room
      simp only [List.append_assoc, List.cons_append, fields_gap before]
      refine fields_more ((value_gap between _ _).trans ?_)
        (fields_of_spells onward budget gap after behind (by omega))
      exact value_of_spells h budget _ (by omega) (stops_cons (by decide) _)

end

theorem parse?_of_spells {text : String} (h : Spells json text.toList) :
    parse? text = some json := by
  have room : text.toList.length < text.length + 1 := by
    rw [String.length_toList]
    exact Nat.lt_succ_self _
  have read := value_of_spells h (text.length + 1) [] room (by rintro _ ⟨⟩)
  rw [List.append_nil] at read
  simp [parse?, read, skipGap]

end Statline.Json
