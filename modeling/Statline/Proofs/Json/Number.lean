import Statline.Proofs.Json.Numeral

namespace Statline.Json

variable {text rest after run : List Char} {number : Numeral} {c : Char} {x : Float} {n : Nat}

theorem head?_toDigits_ne_zero (n : Nat) (h : 0 < n) : (Nat.toDigits 10 n).head? ≠ some '0' := by
  induction n using Nat.strongRecOn with
  | ind n ih =>
    by_cases short : n < 10
    · rw [Nat.toDigits_of_lt_base short]
      simpa [Nat.digitChar_eq_zero] using Nat.ne_of_gt h
    · have shorter := ih (n / 10) (by omega) (by omega)
      obtain ⟨first, others, digits⟩ :=
        List.exists_cons_of_ne_nil (Nat.toDigits_ne_nil (n := n / 10) (b := 10))
      rw [Nat.toDigits_of_base_le (by decide) (by omega), digits]
      simpa [digits] using shorter

theorem isDigit_of_mem_toDigits (member : c ∈ Nat.toDigits 10 n) : c.isDigit = true :=
  Nat.isDigit_of_mem_toDigits (by decide) (by decide) member

/-- No zero leads the digits of a number. -/
theorem whole_toDigits (n : Nat) : whole (Nat.toDigits 10 n) = some (Nat.toDigits 10 n, []) := by
  have cut : digits (Nat.toDigits 10 n ++ []) = some (Nat.toDigits 10 n, []) :=
    digits_append Nat.toDigits_ne_nil (fun _ => isDigit_of_mem_toDigits) (by simp)
  rw [List.append_nil] at cut
  simp only [whole, cut, Option.bind_eq_bind, Option.bind_some]
  rcases Nat.eq_zero_or_pos n with rfl | positive
  · rfl
  · simp [head?_toDigits_ne_zero n positive]

theorem le_ofDigitChars (run : List Char) (n : Nat) : n ≤ Nat.ofDigitChars 10 run n := by
  rw [Nat.ofDigitChars_eq_ofDigitChars_zero]
  have power : 0 < 10 ^ run.length := Nat.pow_pos (by decide)
  have scaled := Nat.le_mul_of_pos_left n power
  omega

theorem appendDigits_eq (h : Nat.ofDigitChars 10 run n < UInt64.size) :
    Decimal.appendDigits n run = (Nat.ofDigitChars 10 run n, []) := by
  induction run generalizing n with
  | nil => rfl
  | cons c run ih =>
    rw [Nat.ofDigitChars_cons] at h ⊢
    have fits := Nat.lt_of_le_of_lt (le_ofDigitChars run _) h
    rw [Decimal.appendDigits, if_pos fits, ih h]

theorem appendDigits_toDigits (h : n < UInt64.size) :
    Decimal.appendDigits 0 (Nat.toDigits 10 n) = (n, []) := by
  rw [appendDigits_eq] <;> rw [Nat.ofDigitChars_ten_toDigits]
  exact h

theorem unsigned_toDigits (negative : Bool) (n : Nat) :
    unsigned negative (Nat.toDigits 10 n) =
      some (⟨negative, Nat.toDigits 10 n, none, none⟩, []) := by
  simp [unsigned, whole_toDigits, fraction, exponent]

/-- A whole number of 64 bits, signed or unsigned, is read as itself. -/
theorem numeral_scalar_int {n : Int} (low : Int64.minValue.toInt ≤ n) (high : n < UInt64.size) :
    ∃ number, numeral (scalar (.int n)) = some (number, []) ∧ number.toJson = .int n := by
  simp only [scalar, Int.toString_eq_repr, Int.repr_eq_if]
  split
  next nonneg =>
    obtain ⟨m, rfl⟩ := Int.eq_ofNat_of_zero_le nonneg
    rw [Int.toNat_natCast, Nat.repr_eq_ofList_toDigits, String.toList_ofList, numeral_of_head?_ne]
    · refine ⟨_, unsigned_toDigits false m, ?_⟩
      simp [Numeral.toJson, Numeral.toInt?, appendDigits_toDigits (n := m) (by omega)]
    · exact fun minus => absurd (isDigit_of_mem_toDigits (List.mem_of_mem_head? minus)) (by decide)
  next negative =>
    obtain ⟨m, rfl⟩ : ∃ m : Nat, n = -m := ⟨n.natAbs, by omega⟩
    have positive : 0 < m := by omega
    have least : (m : Int) ≤ 9223372036854775808 := Int.neg_le_neg_iff.mp low
    have fits : m < UInt64.size := by
      have size : UInt64.size = 18446744073709551616 := rfl
      omega
    have signed : ("-" ++ (- -(m : Int)).toNat.repr).toList = '-' :: Nat.toDigits 10 m := by
      simp [Nat.repr_eq_ofList_toDigits]
    rw [signed]
    refine ⟨_, unsigned_toDigits true m, ?_⟩
    simp [Numeral.toJson, Numeral.toInt?, appendDigits_toDigits fits, positive, least]

theorem numeral_head (h : numeral text = some (number, rest)) :
    ∃ c others, text = c :: others ∧ (c = '-' ∨ c.isDigit) := by
  cases text with
  | nil => cases h
  | cons c others =>
    refine ⟨c, others, rfl, ?_⟩
    by_cases minus : c = '-'
    · exact .inl minus
    · rw [numeral_of_head?_ne (by simpa using minus)] at h
      obtain ⟨_, h, _⟩ := Option.bind_eq_some_iff.mp h
      obtain ⟨⟨run, _⟩, cut, _⟩ := Option.bind_eq_some_iff.mp h
      obtain ⟨some_digit, whole, all, _⟩ := digits_eq_some_iff.mp cut
      cases run with
      | nil => exact absurd rfl some_digit
      | cons first run =>
        cases whole
        exact .inr (all c List.mem_cons_self)

theorem skipGap_eq_self (h : ∀ c ∈ text.head?, isGap c = false) : skipGap text = text := by
  cases text with
  | nil => rfl
  | cons c text => exact List.dropWhile_cons_of_neg (by simp [h c rfl])

theorem skipGap_of_forall (h : ∀ c ∈ text, isGap c = false) : skipGap text = text :=
  skipGap_eq_self fun c first => h c (List.mem_of_mem_head? first)

theorem not_isGap_of_isDigit (digit : c.isDigit = true) : isGap c = false := by
  refine Bool.eq_false_iff.mpr fun gap => ?_
  simp only [isGap, Bool.or_eq_true, decide_eq_true_eq] at gap
  rcases gap with ((rfl | rfl) | rfl) | rfl <;> exact absurd digit (by decide)

theorem value_of_numeral (h : numeral text = some (number, [])) (stops : Stops after)
    (budget : Nat) : value (budget + 1) (text ++ after) = some (number.toJson, after) := by
  obtain ⟨c, others, rfl, first⟩ := numeral_head h
  have onward := (stable_numeral _ _ _ h).2 after stops
  have skip : skipGap (c :: others ++ after) = c :: others ++ after := by
    refine skipGap_eq_self ?_
    rintro c ⟨⟩
    rcases first with rfl | digit
    · rfl
    · exact not_isGap_of_isDigit digit
  rw [value, skip]
  split
  case h_7 =>
    rw [onward]
    rfl
  all_goals
    next eq =>
      obtain rfl := (List.cons.inj eq).1
      exact absurd first (by decide)

theorem numeral_of_value_float {budget : Nat} (h : value budget text = some (.float x, rest)) :
    ∃ number, numeral (skipGap text) = some (number, rest) ∧ number.toJson = .float x := by
  cases budget with
  | zero => simp [value] at h
  | succ budget =>
    rw [value] at h
    split at h
    case h_1 =>
      obtain ⟨⟨content, _⟩, _, eq⟩ := Option.bind_eq_some_iff.mp h
      cases content <;> cases eq
    case h_2 =>
      split at h
      next => cases h
      next =>
        obtain ⟨_, _, eq⟩ := Option.bind_eq_some_iff.mp h
        cases eq
    case h_3 =>
      split at h
      next => cases h
      next =>
        obtain ⟨⟨content, _⟩, _, eq⟩ := Option.bind_eq_some_iff.mp h
        cases content <;> cases eq
    case h_7 =>
      obtain ⟨⟨number, _⟩, cut, eq⟩ := Option.bind_eq_some_iff.mp h
      obtain ⟨read, rfl⟩ := Prod.mk.inj (Option.some.inj eq)
      exact ⟨number, cut, read⟩
    all_goals cases h

theorem not_isGap_of_mem_toDigits : ∀ c ∈ Nat.toDigits 10 n, isGap c = false :=
  fun _ member => not_isGap_of_isDigit (isDigit_of_mem_toDigits member)

theorem not_isGap_of_mem_plain (layout : Decimal.Layout) (point : Int)
    (digits : ∀ c ∈ run, isGap c = false) : ∀ c ∈ layout.plain run point, isGap c = false := by
  have zeros (n : Nat) : ∀ c ∈ Decimal.zeros n, isGap c = false := by
    intro c member
    rw [List.eq_of_mem_replicate member]
    rfl
  unfold Decimal.Layout.plain
  split
  next =>
    rw [List.forall_mem_cons, List.forall_mem_cons, List.forall_mem_append]
    exact ⟨rfl, rfl, zeros _, digits⟩
  split
  next =>
    rw [List.forall_mem_append, List.forall_mem_append]
    refine ⟨⟨digits, zeros _⟩, ?_⟩
    split <;> simp [isGap]
  next =>
    rw [List.forall_mem_append, List.forall_mem_cons]
    exact ⟨fun c member => digits c (List.mem_of_mem_take member), rfl,
      fun c member => digits c (List.mem_of_mem_drop member)⟩

theorem not_isGap_of_mem_scientific (point : Int) (digits : ∀ c ∈ run, isGap c = false) :
    ∀ c ∈ Decimal.scientific run point, isGap c = false := by
  unfold Decimal.scientific
  rw [List.forall_mem_append, List.forall_mem_cons, List.forall_mem_cons]
  refine ⟨?_, rfl, ?_, not_isGap_of_mem_toDigits⟩
  · split
    next first second rest =>
      obtain ⟨first, others⟩ := List.forall_mem_cons.mp digits
      rw [List.forall_mem_cons, List.forall_mem_cons]
      exact ⟨first, rfl, others⟩
    next => exact digits
  · split <;> rfl

theorem not_isGap_of_mem_magnitude (layout : Decimal.Layout) (x : Decimal.Binary) :
    ∀ c ∈ layout.magnitude x, isGap c = false := by
  unfold Decimal.Layout.magnitude
  dsimp only
  split
  next => exact not_isGap_of_mem_plain layout _ not_isGap_of_mem_toDigits
  split
  next => exact not_isGap_of_mem_plain layout _ not_isGap_of_mem_toDigits
  next => exact not_isGap_of_mem_scientific _ not_isGap_of_mem_toDigits

/-- No white space stands in the text of a double. -/
theorem not_isGap_of_mem_scalar_float (finite : x.isFinite) :
    ∀ c ∈ scalar (.float x), isGap c = false := by
  simp only [scalar, finite, if_true, Decimal.Layout.write]
  split
  next => simp [isGap]
  split
  next => split <;> simp [isGap]
  next =>
    rw [String.toList_append, List.forall_mem_append, String.toList_ofList]
    constructor
    · split <;> simp [isGap]
    · exact not_isGap_of_mem_magnitude layout _

/-- A double that is read as itself from the text that it is written as. -/
def Legible (x : Float) : Prop :=
  parse? (compactText (.float x)) = some (.float x)

/-- Whole numbers are no doubles here, though they may be read as such. -/
def double? : Json → Option Float
  | .float x => some x
  | _ => none

theorem legible_iff : Legible x ↔ (parse? (compactText (.float x))).bind double? = some x := by
  rw [Legible]
  rcases parse? (compactText (.float x)) with _ | json
  · simp
  · cases json <;> simp [double?]

instance (x : Float) : Decidable (Legible x) :=
  decidable_of_iff' _ legible_iff

theorem numeral_scalar_float (finite : x.isFinite) (h : Legible x) :
    ∃ number, numeral (scalar (.float x)) = some (number, []) ∧ number.toJson = .float x := by
  have plain := not_isGap_of_mem_scalar_float finite
  simp only [Legible, parse?, compactText, compact, String.toList_ofList] at h
  split at h
  next json rest read =>
    split at h
    next spent =>
      cases h
      obtain ⟨number, cut, same⟩ := numeral_of_value_float read
      rw [skipGap_of_forall plain] at cut
      have suffix := (stable_numeral _ _ _ cut).1
      rw [skipGap_of_forall fun c member => plain c (suffix.mem member), List.isEmpty_iff] at spent
      exact ⟨number, spent ▸ cut, same⟩
    next => cases h
  next => cases h

end Statline.Json
