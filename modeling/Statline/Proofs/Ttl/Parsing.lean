import Statline.Proofs.Double.Truncation
import Statline.Proofs.Ttl.Scanning

namespace Statline

namespace Text

variable {leading core trailing text : List Char}

theorem exists_eq_append_trim (text : List Char) :
    ∃ trailing, text = text.takeWhile isSpace ++ trim text ++ trailing ∧
      ∀ c ∈ trailing, isSpace c = true := by
  have front : text = text.takeWhile isSpace ++ dropSpaces text :=
    List.takeWhile_append_dropWhile.symm
  have back : dropSpaces text =
      trim text ++ ((dropSpaces text).reverse.takeWhile isSpace).reverse := by
    rw [trim, ← List.reverse_append, dropSpaces.eq_1 (dropSpaces text).reverse,
      List.takeWhile_append_dropWhile, List.reverse_reverse]
  refine ⟨((dropSpaces text).reverse.takeWhile isSpace).reverse, ?_, fun c member => ?_⟩
  · rw [List.append_assoc, ← back, ← front]
  · exact List.mem_takeWhile_imp (List.mem_reverse.mp member)

theorem dropSpaces_append (before : ∀ c ∈ leading, isSpace c = true) (filled : core ≠ [])
    (first : ∀ c ∈ core.head?, isSpace c = false) (trailing : List Char) :
    dropSpaces (leading ++ (core ++ trailing)) = core ++ trailing := by
  obtain ⟨c, rest, rfl⟩ := List.exists_cons_of_ne_nil filled
  rw [dropSpaces, List.dropWhile_append_of_pos before, List.cons_append,
    List.dropWhile_cons_of_neg]
  exact Bool.eq_false_iff.mp (first c rfl)

/-- Only the white space around a text that neither begins nor ends with any is trimmed. -/
theorem trim_append (before : ∀ c ∈ leading, isSpace c = true)
    (behind : ∀ c ∈ trailing, isSpace c = true) (filled : core ≠ [])
    (first : ∀ c ∈ core.head?, isSpace c = false)
    (last : ∀ c ∈ core.getLast?, isSpace c = false) :
    trim (leading ++ core ++ trailing) = core := by
  have back : dropSpaces (trailing.reverse ++ core.reverse) = core.reverse := by
    have turned : ∀ c ∈ core.reverse.head?, isSpace c = false := by rwa [List.head?_reverse]
    have around : ∀ c ∈ trailing.reverse, isSpace c = true := by simpa using behind
    simpa using dropSpaces_append around (List.reverse_ne_nil_iff.mpr filled) turned []
  rw [trim, List.append_assoc, dropSpaces_append before filled first, List.reverse_append, back,
    List.reverse_reverse]

end Text

namespace Ttl

variable {ttl : String} {nanos : Nat} {fault : Fault} {segments : List Segment}

theorem isSpace_of_isNumeral {c : Char} (h : isNumeral c = true) : Text.isSpace c = false := by
  rcases isNumeral_iff.mp h with digit | rfl
  · have range : 48 ≤ c.toNat ∧ c.toNat ≤ 57 := by
      simpa [Char.isDigit, UInt32.le_iff_toNat_le] using digit
    simp [Text.isSpace, Text.whiteSpace]
    omega
  · rfl

theorem flatMap_text_ne_nil (filled : segments ≠ []) : segments.flatMap Segment.text ≠ [] := by
  obtain ⟨first, rest, rfl⟩ := List.exists_cons_of_ne_nil filled
  simp [Segment.text, first.amount_ne_nil]

/-- What segments write has no white space around it. -/
theorem trim_text {leading trailing : List Char} (before : ∀ c ∈ leading, Text.isSpace c = true)
    (behind : ∀ c ∈ trailing, Text.isSpace c = true) (filled : segments ≠ []) :
    Text.trim (leading ++ segments.flatMap Segment.text ++ trailing) =
      segments.flatMap Segment.text := by
  obtain ⟨front, last, rfl⟩ := (List.eq_nil_or_concat' segments).resolve_left filled
  obtain ⟨named, plain⟩ := mem_unit last.isUnit
  have whole : (front ++ [last]).flatMap Segment.text =
      front.flatMap Segment.text ++ last.amount ++ last.unit.1.toList := by
    simp [Segment.text]
  refine Text.trim_append before behind (flatMap_text_ne_nil filled)
    (fun c head => isSpace_of_isNumeral (isNumeral_head head)) fun c final => ?_
  rw [whole, List.getLast?_append_of_ne_nil _ named] at final
  exact (plain c (List.mem_of_getLast? final)).2

theorem parse_eq_ok :
    parse ttl = .ok nanos ↔ ∃ sum, Text.trim ttl.toList ≠ [] ∧
      total 0.0 (runs (Text.trim ttl.toList)) = some sum ∧
      1.0 ≤ sum ∧ sum < 18446744073709551616.0 ∧ sum.toUInt64.toNat = nanos := by
  unfold parse
  by_cases blank : Text.trim ttl.toList = []
  · simp [blank]
  · cases summed : total 0.0 (runs (Text.trim ttl.toList)) with
    | none => simp [blank, summed]
    | some sum =>
      by_cases within : 1.0 ≤ sum ∧ sum < 18446744073709551616.0
      · simp [blank, summed, within]
      · refine iff_of_false (by simp [blank, summed, within]) ?_
        rintro ⟨other, _, ⟨⟩, least, most, _⟩
        exact within ⟨least, most⟩

theorem parse_eq_error (h : parse ttl = .error fault) : fault = .invalidTtl ttl := by
  unfold parse at h
  dsimp only at h
  split at h
  next =>
    split at h
    next => cases h
    next => cases h; rfl
  next => cases h; rfl

theorem parse_pos (h : parse ttl = .ok nanos) : 0 < nanos := by
  obtain ⟨sum, _, _, least, _, rfl⟩ := parse_eq_ok.mp h
  exact Double.toUInt64_pos least

/-- The byte offsets at which a text is cut: behind the white space before its first run and behind
each of its runs. -/
def cuts (ttl : String) : List Nat :=
  (runs (Text.trim ttl.toList)).inits.map fun done =>
    (String.ofList (ttl.toList.takeWhile Text.isSpace ++ done.flatten)).utf8ByteSize

theorem isValid_of_mem_cuts {offset : Nat} (h : offset ∈ cuts ttl) :
    (String.Pos.Raw.mk offset).IsValid ttl := by
  obtain ⟨done, cut, rfl⟩ := List.mem_map.mp h
  obtain ⟨left, whole⟩ := (List.mem_inits _ _).mp cut
  obtain ⟨trailing, split, _⟩ := Text.exists_eq_append_trim ttl.toList
  have flat : Text.trim ttl.toList = done.flatten ++ left.flatten := by
    rw [← List.flatten_append, whole, runs, List.flatten_splitBy]
  refine String.Pos.Raw.isValid_iff_exists_append.mpr
    ⟨_, String.ofList (left.flatten ++ trailing), ?_, rfl⟩
  rw [← String.ofList_append, List.append_assoc, ← List.append_assoc done.flatten, ← flat,
    ← List.append_assoc, ← split, String.ofList_toList]

/-- What lies between one cut and the next. -/
def slices (ttl : String) : List String :=
  (cuts ttl).zipWith (fun start stop => String.Pos.Raw.extract ttl ⟨start⟩ ⟨stop⟩) (cuts ttl).tail

/-- The byte offsets of pieces that stand one behind the other, and where the last of them ends. -/
def offsets (before : List Char) (pieces : List (List Char)) : List Nat :=
  pieces.inits.map fun done => (String.ofList (before ++ done.flatten)).utf8ByteSize

theorem offsets_cons (before piece : List Char) (rest : List (List Char)) :
    offsets before (piece :: rest) =
      (String.ofList before).utf8ByteSize :: offsets (before ++ piece) rest := by
  simp [offsets]

theorem exists_offsets_eq (before : List Char) (pieces : List (List Char)) :
    ∃ later, offsets before pieces = (String.ofList before).utf8ByteSize :: later := by
  cases pieces with
  | nil => exact ⟨[], by simp [offsets]⟩
  | cons piece rest => exact ⟨_, offsets_cons before piece rest⟩

theorem extract_piece (before piece behind : List Char) :
    String.Pos.Raw.extract (String.ofList (before ++ piece ++ behind))
      ⟨(String.ofList before).utf8ByteSize⟩ ⟨(String.ofList (before ++ piece)).utf8ByteSize⟩ =
        String.ofList piece := by
  rw [String.utf8ByteSize_ofList, String.utf8ByteSize_ofList, String.utf8Len_append]
  exact String.extract_of_valid before piece behind

theorem zipWith_extract_offsets (before : List Char) (pieces : List (List Char))
    (behind : List Char) :
    (offsets before pieces).zipWith (fun start stop => String.Pos.Raw.extract
      (String.ofList (before ++ pieces.flatten ++ behind)) ⟨start⟩ ⟨stop⟩)
        (offsets before pieces).tail = pieces.map String.ofList := by
  induction pieces generalizing before with
  | nil => rfl
  | cons piece rest ih =>
    obtain ⟨later, start⟩ := exists_offsets_eq (before ++ piece) rest
    have others := ih (before ++ piece)
    rw [start, List.tail_cons] at others
    have whole : before ++ (piece :: rest).flatten ++ behind =
        before ++ piece ++ rest.flatten ++ behind := by simp
    rw [whole, offsets_cons, List.tail_cons, start, List.zipWith_cons_cons, others,
      List.append_assoc (before ++ piece), extract_piece, List.map_cons]

theorem slices_eq (ttl : String) :
    slices ttl = (runs (Text.trim ttl.toList)).map String.ofList := by
  obtain ⟨trailing, split, _⟩ := Text.exists_eq_append_trim ttl.toList
  have whole : (runs (Text.trim ttl.toList)).flatten = Text.trim ttl.toList :=
    List.flatten_splitBy ..
  rw [← whole] at split
  have sliced := zipWith_extract_offsets (ttl.toList.takeWhile Text.isSpace)
    (runs (Text.trim ttl.toList)) trailing
  rw [← split, String.ofList_toList] at sliced
  exact sliced

/-- A text is read if it is one or more segments with nothing but white space around them that
add up to a nanosecond at least and to fewer than 2^64, and only then. What is read is that sum
without its fraction; any other text is named by the fault. No character is cut: what lies between
the cuts are the runs that are read, and reading the text from cut to cut comes to the same. -/
theorem parse_iff_segments (ttl : String) :
    (∀ nanos, parse ttl = .ok nanos ↔ ∃ leading segments trailing,
      ttl.toList = leading ++ segments.flatMap Segment.text ++ trailing ∧
      (∀ c ∈ leading ++ trailing, Text.isSpace c = true) ∧ segments ≠ [] ∧
      1.0 ≤ Segment.sum segments ∧ Segment.sum segments < 18446744073709551616.0 ∧
      nanos = ⌊Double.toRat (Segment.sum segments)⌋₊) ∧
    ((∃ nanos, parse ttl = .ok nanos) ∨ parse ttl = .error (.invalidTtl ttl)) ∧
    (∀ offset ∈ cuts ttl, (String.Pos.Raw.mk offset).IsValid ttl) ∧
    slices ttl = (runs (Text.trim ttl.toList)).map String.ofList ∧
    parseInPlace ttl = some (parse ttl) := by
  refine ⟨fun nanos => ⟨fun h => ?_, ?_⟩, ?_, fun offset => isValid_of_mem_cuts, slices_eq ttl,
    parseInPlace_eq ttl⟩
  · obtain ⟨sum, filled, summed, least, most, rfl⟩ := parse_eq_ok.mp h
    obtain ⟨segments, pieces, rfl⟩ := total_eq_some_iff.mp summed
    have text : Text.trim ttl.toList = segments.flatMap Segment.text := by
      rw [← Segment.flatten_pieces, ← pieces, runs, List.flatten_splitBy]
    obtain ⟨trailing, split, behind⟩ := Text.exists_eq_append_trim ttl.toList
    refine ⟨_, segments, trailing, text ▸ split, fun c member => ?_, ?_, least, most,
      Double.toUInt64_eq_floor least most⟩
    · rcases List.mem_append.mp member with before | after
      · exact List.mem_takeWhile_imp before
      · exact behind c after
    · rintro rfl
      exact filled text
  · rintro ⟨leading, segments, trailing, split, around, filled, least, most, rfl⟩
    have text : Text.trim ttl.toList = segments.flatMap Segment.text := by
      rw [split]
      exact trim_text (fun c member => around c (List.mem_append_left _ member))
        (fun c member => around c (List.mem_append_right _ member)) filled
    have summed : total 0.0 (runs (Text.trim ttl.toList)) = some (Segment.sum segments) := by
      rw [text, runs_text]
      exact total_eq_some_iff.mpr ⟨segments, rfl, rfl⟩
    exact parse_eq_ok.mpr ⟨_, text ▸ flatMap_text_ne_nil filled, summed, least, most,
      Double.toUInt64_eq_floor least most⟩
  · cases parsed : parse ttl with
    | ok nanos => exact .inl ⟨nanos, rfl⟩
    | error fault => exact .inr (congrArg _ (parse_eq_error parsed))

example : parse " 1h30m.5ns" = .ok 5400000000000 := by decide +kernel

end Ttl

end Statline
