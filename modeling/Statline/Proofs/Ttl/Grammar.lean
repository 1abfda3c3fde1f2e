import Mathlib
import Statline.Ttl

namespace Statline.Ttl

/-- A run of digits and points with one digit at least and one point at most. -/
structure IsAmount (text : List Char) : Prop where
  numeral : ∀ c ∈ text, isNumeral c = true
  digit : ∃ c ∈ text, c.isDigit = true
  point : text.count '.' ≤ 1

/-- The whole number that digits write. -/
def whole (digits : List Char) : Nat :=
  Nat.ofDigits 10 (digits.reverse.map fun c => c.toNat - '0'.toNat)

/-- The double for an amount: the whole number of its digits, scaled down by one power of ten for
each digit behind the point. -/
def decimal (amount : List Char) : Float :=
  Float.ofScientific (whole (amount.filter Char.isDigit)) true
    ((amount.dropWhile (· ≠ '.')).drop 1).length

/-- The units as they are written, with the nanoseconds in each. -/
def units : List (String × Float) :=
  [("ns", 1.0), ("us", 1e3), ("µs", 1e3), ("ms", 1e6), ("s", 1e9), ("m", 60e9), ("h", 3600e9)]

/-- An amount of a unit, such as `1.5h`. -/
structure Segment where
  amount : List Char
  unit : String × Float
  isAmount : IsAmount amount
  isUnit : unit ∈ units

namespace Segment

def text (segment : Segment) : List Char :=
  segment.amount ++ segment.unit.1.toList

def nanoseconds (segment : Segment) : Float :=
  decimal segment.amount * segment.unit.2

/-- The amounts and the units in turn. -/
def pieces (segments : List Segment) : List (List Char) :=
  segments.flatMap fun segment => [segment.amount, segment.unit.1.toList]

def addTo (acc : Float) (segments : List Segment) : Float :=
  segments.foldl (fun acc segment => acc + segment.nanoseconds) acc

/-- Adds from left to right, and each time rounds to a double. -/
def sum (segments : List Segment) : Float :=
  addTo 0.0 segments

theorem flatten_pieces (segments : List Segment) :
    (pieces segments).flatten = segments.flatMap text := by
  induction segments with
  | nil => rfl
  | cons first rest ih =>
    rw [pieces] at ih ⊢
    simp [text, ih]

end Segment

variable {text : List Char} {x acc : Float} {segments : List Segment}

theorem isNumeral_iff {c : Char} : isNumeral c = true ↔ c.isDigit = true ∨ c = '.' := by
  simp [isNumeral]

theorem isDigit_point : ('.').isDigit = false := rfl

theorem takeWhile_append_drop_dropWhile (text : List Char) :
    text.takeWhile (· ≠ '.') ++ (text.dropWhile (· ≠ '.')).drop 1 = text.erase '.' := by
  induction text with
  | nil => rfl
  | cons c rest ih =>
    by_cases point : c = '.'
    · subst point
      simp
    · rw [List.takeWhile_cons_of_pos (by simpa using point),
        List.dropWhile_cons_of_pos (by simpa using point),
        List.erase_cons_tail (by simpa using point), List.cons_append, ih]

theorem foldl_eq_whole (digits : List Char) :
    digits.foldl (fun n c => 10 * n + (c.toNat - '0'.toNat)) 0 = whole digits := by
  simp [whole, Nat.ofDigits_eq_foldr, List.foldl_map, Nat.add_comm]

theorem isAmount_iff :
    IsAmount text ↔ text.erase '.' ≠ [] ∧ ∀ c ∈ text.erase '.', c.isDigit = true := by
  constructor
  · rintro ⟨numeral, ⟨digit, member, isDigit⟩, point⟩
    have apart : digit ≠ '.' := by
      rintro rfl
      cases isDigit_point.symm.trans isDigit
    refine ⟨List.ne_nil_of_mem ((List.mem_erase_of_ne apart).mpr member), fun c kept => ?_⟩
    have gone : '.' ∉ text.erase '.' := by
      rw [← List.count_eq_zero, List.count_erase_self]
      omega
    rcases isNumeral_iff.mp (numeral c (List.mem_of_mem_erase kept)) with isDigit | rfl
    · exact isDigit
    · exact absurd kept gone
  · rintro ⟨filled, all⟩
    obtain ⟨digit, member⟩ := List.exists_mem_of_ne_nil _ filled
    refine ⟨fun c inside => ?_, ⟨digit, List.mem_of_mem_erase member, all digit member⟩, ?_⟩
    · by_cases point : c = '.'
      · exact isNumeral_iff.mpr (.inr point)
      · exact isNumeral_iff.mpr (.inl (all c ((List.mem_erase_of_ne point).mpr inside)))
    · have gone : '.' ∉ text.erase '.' := by
        intro kept
        cases isDigit_point.symm.trans (all '.' kept)
      rw [← List.count_eq_zero, List.count_erase_self] at gone
      omega

theorem amount?_eq_some_iff : amount? text = some x ↔ IsAmount text ∧ x = decimal text := by
  have all : (text.erase '.').all Char.isDigit = true ↔ ∀ c ∈ text.erase '.', c.isDigit = true :=
    List.all_eq_true
  unfold amount?
  simp only [takeWhile_append_drop_dropWhile, foldl_eq_whole]
  split
  next bad =>
    refine iff_of_false nofun fun ⟨amount, _⟩ => ?_
    obtain ⟨filled, digits⟩ := isAmount_iff.mp amount
    simp [filled, all.mpr digits] at bad
  next good =>
    obtain ⟨filled, digits⟩ : text.erase '.' ≠ [] ∧ (text.erase '.').all Char.isDigit = true := by
      simpa using good
    have digits := all.mp digits
    have kept : text.filter Char.isDigit = text.erase '.' := by
      have gone : '.' ∉ text.filter Char.isDigit := by simp [isDigit_point]
      rw [← List.erase_of_not_mem gone, List.erase_filter, List.filter_eq_self.mpr digits]
    rw [decimal, kept, Option.some_inj, eq_comm]
    exact (and_iff_right (isAmount_iff.mpr ⟨filled, digits⟩)).symm

theorem unit?_eq_some_iff : unit? text = some x ↔ (String.ofList text, x) ∈ units := by
  unfold unit?
  generalize String.ofList text = name
  split <;> simp_all [units, eq_comm]

theorem mem_unit {unit : String × Float} (h : unit ∈ units) :
    unit.1.toList ≠ [] ∧
      ∀ c ∈ unit.1.toList, isNumeral c = false ∧ Text.isSpace c = false := by
  simp only [units, List.mem_cons, List.not_mem_nil, or_false] at h
  rcases h with rfl | rfl | rfl | rfl | rfl | rfl | rfl <;>
    simp [isNumeral, Text.isSpace, Text.whiteSpace]

theorem total_eq_some_iff {pieces : List (List Char)} :
    total acc pieces = some x ↔
      ∃ segments, pieces = Segment.pieces segments ∧ x = Segment.addTo acc segments := by
  constructor
  · intro h
    induction acc, pieces using total.induct with
    | case1 acc =>
      cases h
      exact ⟨[], rfl, rfl⟩
    | case2 acc piece => cases h
    | case3 acc number unit rest ih =>
      obtain ⟨amount, read, h⟩ := Option.bind_eq_some_iff.mp h
      obtain ⟨scale, known, h⟩ := Option.bind_eq_some_iff.mp h
      obtain ⟨isAmount, rfl⟩ := amount?_eq_some_iff.mp read
      obtain ⟨segments, rfl, rfl⟩ := ih _ _ h
      refine ⟨⟨number, _, isAmount, unit?_eq_some_iff.mp known⟩ :: segments, ?_, rfl⟩
      simp [Segment.pieces]
  · rintro ⟨segments, rfl, rfl⟩
    induction segments generalizing acc with
    | nil => rfl
    | cons first rest ih =>
      have amount := amount?_eq_some_iff.mpr ⟨first.isAmount, rfl⟩
      have unit : unit? first.unit.1.toList = some first.unit.2 := by
        rw [unit?_eq_some_iff, String.ofList_toList]
        exact first.isUnit
      have step : total acc (Segment.pieces (first :: rest)) =
          total (acc + first.nanoseconds) (Segment.pieces rest) := by
        simp [Segment.pieces, total, amount, unit, Segment.nanoseconds]
      exact step.trans ih

theorem runs_append {run rest : List Char} {kind : Bool} (filled : run ≠ [])
    (alike : ∀ c ∈ run, isNumeral c = kind) (next : ∀ c ∈ rest.head?, isNumeral c = !kind) :
    runs (run ++ rest) = run :: runs rest := by
  have one : runs run = [run] := by
    refine List.splitBy_of_isChain filled (List.Pairwise.isChain ?_)
    refine List.pairwise_of_forall_mem_list fun c hc d hd => ?_
    simp [alike c hc, alike d hd]
  have apart : runs (run ++ rest) = runs run ++ runs rest := by
    refine List.splitBy_append fun c hc d hd => ?_
    simp [alike c (List.mem_of_getLast? hc), next d hd]
  rw [apart, one, List.singleton_append]

theorem Segment.amount_ne_nil (segment : Segment) : segment.amount ≠ [] := by
  obtain ⟨digit, member, _⟩ := segment.isAmount.digit
  exact List.ne_nil_of_mem member

theorem isNumeral_head {c : Char} (h : c ∈ (segments.flatMap Segment.text).head?) :
    isNumeral c = true := by
  cases segments with
  | nil => cases h
  | cons first rest =>
    rw [List.flatMap_cons, Segment.text, List.append_assoc,
      List.head?_append_of_ne_nil _ first.amount_ne_nil] at h
    exact first.isAmount.numeral c (List.mem_of_mem_head? h)

/-- What segments write falls into their amounts and units again. -/
theorem runs_text (segments : List Segment) :
    runs (segments.flatMap Segment.text) = Segment.pieces segments := by
  induction segments with
  | nil => rfl
  | cons first rest ih =>
    obtain ⟨named, plain⟩ := mem_unit first.isUnit
    have unit : runs (first.unit.1.toList ++ rest.flatMap Segment.text) =
        first.unit.1.toList :: Segment.pieces rest := by
      rw [runs_append named (fun c member => (plain c member).1) fun c head => isNumeral_head head,
        ih]
    have turn : ∀ c ∈ (first.unit.1.toList ++ rest.flatMap Segment.text).head?,
        isNumeral c = !true := by
      intro c head
      rw [List.head?_append_of_ne_nil _ named] at head
      exact (plain c (List.mem_of_mem_head? head)).1
    rw [List.flatMap_cons, Segment.text, List.append_assoc,
      runs_append first.amount_ne_nil first.isAmount.numeral turn, unit]
    rfl

end Statline.Ttl
