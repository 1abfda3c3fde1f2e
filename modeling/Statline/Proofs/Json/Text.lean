import Mathlib.Data.List.Basic
import Statline.Json.Printer
import Statline.Json.Reader

namespace Statline.Json

variable {c plain : Char} {rest : List Char}

theorem codePoints_letter (letter : c ≠ 'u') (h : shortEscape? c = some plain) :
    codePoints ('\\' :: c :: rest) = (codePoints rest).map (Prod.map (plain.toNat :: ·) id) := by
  rw [codePoints, h]
  · cases codePoints rest <;> rfl
  · simp [letter]

theorem hexUnit?_digitChar :
    ∀ n < 0x20, hexUnit? '0' '0' (Nat.digitChar (n / 16)) (Nat.digitChar (n % 16)) = some n := by
  decide

theorem codePoints_number {n : Nat} (h : n < 0x20) :
    codePoints ('\\' :: 'u' :: '0' :: '0' :: Nat.digitChar (n / 16) :: Nat.digitChar (n % 16) ::
      rest) = (codePoints rest).map (Prod.map (n :: ·) id) := by
  rw [codePoints, hexUnit?_digitChar n h]
  cases codePoints rest <;> rfl

theorem codePoints_plain (quote : c ≠ '"') (slash : c ≠ '\\') (h : ¬ c.toNat < 0x20) :
    codePoints (c :: rest) = (codePoints rest).map (Prod.map (c.toNat :: ·) id) := by
  rw [codePoints, if_neg h]
  · cases codePoints rest <;> rfl
  all_goals simp [quote, slash]

theorem codePoints_escape (c : Char) (rest : List Char) :
    codePoints (escape c ++ rest) = (codePoints rest).map (Prod.map (c.toNat :: ·) id) := by
  unfold escape
  split
  case h_8 quote slash _ _ _ _ _ =>
    split
    next control => exact codePoints_number control
    next printable => exact codePoints_plain quote slash printable
  all_goals exact codePoints_letter (by decide) rfl

theorem codePoints_quoted (text rest : List Char) :
    codePoints (text.flatMap escape ++ '"' :: rest) = some (text.map Char.toNat, rest) := by
  induction text with
  | nil => rfl
  | cons c text ih => simp [codePoints_escape, ih]

/-- No character is half of a surrogate pair. -/
theorem not_surrogate (c : Char) : c.toNat < 0xD800 ∨ 0xE000 ≤ c.toNat := by
  have valid := c.valid
  simp only [UInt32.isValidChar, Nat.isValidChar] at valid
  change c.val.toNat < 0xD800 ∨ 0xE000 ≤ c.val.toNat
  omega

theorem joinSurrogates_map_toNat (text : List Char) :
    joinSurrogates (text.map Char.toNat) = some text := by
  induction text with
  | nil => rfl
  | cons c text ih =>
    have outside := not_surrogate c
    cases text with
    | nil =>
      simp only [List.map_cons, List.map_nil, joinSurrogates, Char.ofNat_toNat]
      rw [if_neg (by simp; omega)]
    | cons next text =>
      simp only [List.map_cons, joinSurrogates, Char.ofNat_toNat] at ih ⊢
      rw [if_neg (by simp; omega), if_neg (by simp; omega), ih]
      rfl

/-- A quoted text is read as itself, whatever follows it. -/
theorem string_quoted (text : String) (rest : List Char) :
    string (text.toList.flatMap escape ++ '"' :: rest) = some (some text, rest) := by
  simp [string, codePoints_quoted, joinSurrogates_map_toNat]

end Statline.Json
