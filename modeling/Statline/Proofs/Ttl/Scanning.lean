import Statline.Proofs.Except
import Statline.Proofs.Ttl.Grammar

namespace Statline.Ttl

/-- What lies before a byte offset and what lies behind it. A text cannot be cut within a
character. -/
def cut? (text : String) (offset : Nat) : Option (String × String) :=
  if valid : (String.Pos.Raw.mk offset).IsValid text then
    some ((text.sliceTo ⟨⟨offset⟩, valid⟩).copy, (text.sliceFrom ⟨⟨offset⟩, valid⟩).copy)
  else none

/-- The byte offset of the first character that is as asked. -/
def find? (asked : Char → Bool) (text : String) : Option Nat :=
  if text.toList.any asked then
    some (String.ofList (text.toList.takeWhile fun c => !asked c)).utf8ByteSize
  else none

/-- What can end the reading of a text early. -/
inductive Stop where
  | unreadable
  /-- A byte offset lies within a character. -/
  | torn

/-- Reads an amount and its unit from the front of a text, and tells what is left of it. -/
def step (rest : String) : Except Stop (Float × String) := do
  let length ← (find? (fun c => !isNumeral c) rest).getDM (throw .unreadable)
  if length = 0 then throw .unreadable
  let (number, rest) ← (cut? rest length).getDM (throw .torn)
  let amount ← (amount? number.toList).getDM (throw .unreadable)
  let (unit, rest) ←
    (cut? rest ((find? isNumeral rest).getD rest.utf8ByteSize)).getDM (throw .torn)
  let scale ← (unit? unit.toList).getDM (throw .unreadable)
  return (amount * scale, rest)

theorem cut?_append (front back : String) :
    cut? (front ++ back) front.utf8ByteSize = some (front, back) := by
  have valid : (String.Pos.Raw.mk front.utf8ByteSize).IsValid (front ++ back) :=
    String.Pos.Raw.isValid_iff_exists_append.mpr ⟨front, back, rfl, rfl⟩
  have splits : String.Pos.Splits ⟨_, valid⟩ front back := ⟨rfl, rfl⟩
  rw [cut?, dif_pos valid, splits.copy_sliceTo_eq, splits.copy_sliceFrom_eq]

theorem cut?_eq_some {text front back : String} {offset : Nat}
    (h : cut? text offset = some (front, back)) :
    text = front ++ back ∧ offset = front.utf8ByteSize := by
  unfold cut? at h
  split at h
  next valid =>
    cases h
    have splits := String.Pos.splits ⟨⟨offset⟩, valid⟩
    exact ⟨splits.eq_append, congrArg String.Pos.Raw.byteIdx splits.offset_eq_rawEndPos⟩
  next => cases h

theorem getDM_throw_eq_ok {α : Type} {found : Option α} {value : α} {stop : Stop} :
    found.getDM (throw stop : Except Stop α) = .ok value ↔ found = some value := by
  cases found with
  | none => exact ⟨nofun, nofun⟩
  | some other => simp [Option.getDM, pure, Except.pure]

theorem size_lt_of_step {rest left : String} {nanos : Float} (h : step rest = .ok (nanos, left)) :
    left.utf8ByteSize < rest.utf8ByteSize := by
  obtain ⟨length, _, h⟩ := bind_eq_ok.mp h
  split at h
  next => cases h
  next nonzero =>
    obtain ⟨⟨number, behind⟩, cutNumber, h⟩ := bind_eq_ok.mp h
    obtain ⟨amount, _, h⟩ := bind_eq_ok.mp h
    obtain ⟨⟨unit, rest⟩, cutUnit, h⟩ := bind_eq_ok.mp h
    obtain ⟨scale, _, h⟩ := bind_eq_ok.mp h
    cases h
    obtain ⟨rfl, rfl⟩ := cut?_eq_some (getDM_throw_eq_ok.mp cutNumber)
    obtain ⟨rfl, _⟩ := cut?_eq_some (getDM_throw_eq_ok.mp cutUnit)
    simp only [String.utf8ByteSize_append]
    omega

/-- Adds up amounts of units for as long as any of the text is left. -/
def scan (acc : Float) (rest : String) : Except Stop Float :=
  if rest.isEmpty then .ok acc
  else
    match read : step rest with
    | .error stop => .error stop
    | .ok (nanos, left) =>
      have := size_lt_of_step read
      scan (acc + nanos) left
termination_by rest.utf8ByteSize

variable {number unit left front back : List Char} {asked : Char → Bool}

theorem find?_append (before : ∀ c ∈ front, asked c = false)
    (next : ∀ c ∈ back.head?, asked c = true) :
    find? asked (String.ofList (front ++ back)) =
      if back = [] then none else some (String.ofList front).utf8ByteSize := by
  have passed : front.any asked = false := by simpa using before
  rw [find?, String.toList_ofList, List.any_append, passed, Bool.false_or,
    List.takeWhile_append_of_pos (by simpa using before)]
  cases back with
  | nil => rfl
  | cons c rest => simp [next c rfl]

/-- A text begins with a run of numerals, or of other characters, that may be empty. -/
theorem exists_run (kind : Bool) (text : List Char) :
    ∃ run rest, text = run ++ rest ∧ (∀ c ∈ run, isNumeral c = kind) ∧
      ∀ c ∈ rest.head?, isNumeral c = !kind := by
  refine ⟨text.takeWhile (isNumeral · = kind), text.dropWhile (isNumeral · = kind),
    List.takeWhile_append_dropWhile.symm, fun c member => ?_, fun c head => ?_⟩
  · simpa using List.mem_takeWhile_imp member
  · have other := List.head?_dropWhile_not (isNumeral · = kind) text
    rw [Option.mem_def.mp head] at other
    cases kind <;> simpa using other

theorem step_of_no_unit (numerals : ∀ c ∈ number, isNumeral c = true) :
    step (String.ofList number) = .error .unreadable := by
  have missing : find? (fun c => !isNumeral c) (String.ofList (number ++ [])) = none :=
    find?_append (by simpa using numerals) (by simp)
  rw [List.append_nil] at missing
  rw [step, missing]
  rfl

theorem step_of_no_amount (first : ∀ c ∈ front.head?, isNumeral c = false) (filled : front ≠ []) :
    step (String.ofList front) = .error .unreadable := by
  have start : find? (fun c => !isNumeral c) (String.ofList ([] ++ front)) = some 0 := by
    rw [find?_append (by simp) (by simpa using first), if_neg filled]
    rfl
  rw [List.nil_append] at start
  rw [step, start]
  rfl

theorem step_eq (numerals : ∀ c ∈ number, isNumeral c = true)
    (others : ∀ c ∈ unit, isNumeral c = false) (filled : number ≠ []) (named : unit ≠ [])
    (turn : ∀ c ∈ (unit ++ left).head?, isNumeral c = false)
    (next : ∀ c ∈ left.head?, isNumeral c = true) :
    step (String.ofList (number ++ (unit ++ left))) = do
      let amount ← (amount? number).getDM (throw .unreadable)
      let scale ← (unit? unit).getDM (throw .unreadable)
      return (amount * scale, String.ofList left) := by
  have long : (String.ofList number).utf8ByteSize ≠ 0 := by simpa using filled
  have first : find? (fun c => !isNumeral c) (String.ofList (number ++ (unit ++ left))) =
      some (String.ofList number).utf8ByteSize := by
    rw [find?_append (by simpa using numerals) (by simpa using turn), if_neg (by simp [named])]
  have second : (find? isNumeral (String.ofList (unit ++ left))).getD
      (String.ofList (unit ++ left)).utf8ByteSize = (String.ofList unit).utf8ByteSize := by
    rw [find?_append others next]
    cases left <;> simp
  rw [step, first]
  simp only [Option.getDM, pure_bind, if_neg long]
  rw [String.ofList_append, cut?_append]
  simp only [pure_bind, second]
  rw [String.ofList_append, cut?_append]
  simp only [pure_bind, String.toList_ofList]

theorem scan_of_ok {rest left : String} {nanos : Float} (acc : Float)
    (h : step rest = .ok (nanos, left)) : scan acc rest = scan (acc + nanos) left := by
  have filled : rest.isEmpty = false := by
    have size := size_lt_of_step h
    refine Bool.eq_false_iff.mpr fun blank => ?_
    rw [String.isEmpty_iff.mp blank] at size
    exact Nat.not_lt_zero _ size
  rw [scan, if_neg (by simp [filled])]
  split
  next read => cases h.symm.trans read
  next read =>
    cases h.symm.trans read
    rfl

theorem scan_of_error {rest : String} {stop : Stop} (acc : Float) (filled : rest.isEmpty = false)
    (h : step rest = .error stop) : scan acc rest = .error stop := by
  rw [scan, if_neg (by simp [filled])]
  split
  next read =>
    cases h.symm.trans read
    rfl
  next read => cases h.symm.trans read

/-- No amount begins with what is no numeral. -/
theorem total_eq_none (others : ∀ c ∈ unit, isNumeral c = false) (named : unit ≠ [])
    (rest : List (List Char)) (acc : Float) : total acc (unit :: rest) = none := by
  have unread : amount? unit = none := by
    refine Option.eq_none_iff_forall_ne_some.mpr fun x read => ?_
    obtain ⟨c, member⟩ := List.exists_mem_of_ne_nil unit named
    have numeral := (amount?_eq_some_iff.mp read).1.numeral c member
    cases (others c member).symm.trans numeral
  cases rest with
  | nil => rfl
  | cons => simp [total, unread]

theorem scan_append (numerals : ∀ c ∈ number, isNumeral c = true)
    (others : ∀ c ∈ unit, isNumeral c = false) (filled : number ≠ []) (named : unit ≠ [])
    (turn : ∀ c ∈ (unit ++ left).head?, isNumeral c = false)
    (next : ∀ c ∈ left.head?, isNumeral c = true)
    (behind : ∀ acc, scan acc (String.ofList left) =
      (total acc (runs left)).getDM (throw .unreadable)) (acc : Float) :
    scan acc (String.ofList (number ++ (unit ++ left))) =
      (total acc (number :: unit :: runs left)).getDM (throw .unreadable) := by
  have read := step_eq numerals others filled named turn next
  have first : (String.ofList (number ++ (unit ++ left))).isEmpty = false := by simp [filled]
  rw [total]
  cases known : amount? number with
  | none =>
    rw [known] at read
    rw [scan_of_error acc first read]
    rfl
  | some amount =>
    cases scaled : unit? unit with
    | none =>
      rw [known, scaled] at read
      rw [scan_of_error acc first read]
      rfl
    | some scale =>
      rw [known, scaled] at read
      rw [scan_of_ok acc read, behind]
      rfl

/-- The text is cut where its runs meet, and never within a character. -/
theorem scan_eq (acc : Float) (text : List Char) :
    scan acc (String.ofList text) = (total acc (runs text)).getDM (throw .unreadable) := by
  induction size : text.length using Nat.strong_induction_on generalizing acc text with
  | _ n ih =>
    obtain ⟨number, behind, rfl, numerals, turn⟩ := exists_run true text
    obtain ⟨unit, left, rfl, others, next⟩ := exists_run false behind
    rcases eq_or_ne (unit ++ left) [] with blank | more
    · rw [blank]
      rcases eq_or_ne number [] with rfl | filled
      · rw [scan]
        rfl
      · rw [runs_append filled numerals (by simp), List.append_nil,
          scan_of_error acc (by simpa) (step_of_no_unit numerals)]
        rfl
    · have named : unit ≠ [] := by
        rintro rfl
        obtain ⟨c, rest, rfl⟩ := List.exists_cons_of_ne_nil more
        cases (turn c rfl).symm.trans (next c rfl)
      rcases eq_or_ne number [] with rfl | filled
      · rw [List.nil_append, scan_of_error acc (by simpa using more) (step_of_no_amount turn more),
          runs_append named others next, total_eq_none others named]
        rfl
      · have shorter : left.length < n := by
          have := List.length_pos_of_ne_nil filled
          simp only [List.length_append] at size
          omega
        rw [runs_append filled numerals turn, runs_append named others next]
        exact scan_append numerals others filled named turn next
          (fun acc => ih left.length shorter acc left rfl) acc

/-- Reads a text from byte offset to byte offset; there is no outcome if one of these lies within a
character. -/
def parseInPlace (ttl : String) : Option (Except Fault Nat) :=
  let rest := String.ofList (Text.trim ttl.toList)
  if rest.isEmpty then some (.error (.invalidTtl ttl))
  else
    match scan 0.0 rest with
    | .ok nanos =>
      if nanos ≥ 1.0 && nanos < 18446744073709551616.0 then some (.ok nanos.toUInt64.toNat)
      else some (.error (.invalidTtl ttl))
    | .error .unreadable => some (.error (.invalidTtl ttl))
    | .error .torn => none

theorem parseInPlace_eq (ttl : String) : parseInPlace ttl = some (parse ttl) := by
  unfold parseInPlace parse
  dsimp only
  rw [scan_eq]
  by_cases blank : Text.trim ttl.toList = []
  · simp [blank]
  · rw [if_neg (by simpa using blank), if_neg (by simpa using blank)]
    cases total 0.0 (runs (Text.trim ttl.toList)) with
    | none => rfl
    | some sum => exact (apply_ite some ..).symm

end Statline.Ttl
