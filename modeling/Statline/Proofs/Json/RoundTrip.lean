import Statline.Proofs.Json.Spelling

namespace Statline.Json

mutual

/-- All that stands in a document apart from its arrays and objects. -/
def leaves : Json → List Json
  | arr items => leavesOfItems items
  | obj fields => leavesOfFields fields
  | leaf => [leaf]

def leavesOfItems : List Json → List Json
  | [] => []
  | item :: rest => leaves item ++ leavesOfItems rest

def leavesOfFields : List (String × Json) → List Json
  | [] => []
  | (_, value) :: rest => leaves value ++ leavesOfFields rest

end

theorem mem_leavesOfItems {leaf : Json} {items : List Json} :
    leaf ∈ leavesOfItems items ↔ ∃ item ∈ items, leaf ∈ leaves item := by
  induction items with
  | nil => simp [leavesOfItems]
  | cons item rest ih => simp [leavesOfItems, ih]

theorem mem_leavesOfFields {leaf : Json} {fields : List (String × Json)} :
    leaf ∈ leavesOfFields fields ↔ ∃ field ∈ fields, leaf ∈ leaves field.2 := by
  induction fields with
  | nil => simp [leavesOfFields]
  | cons field rest ih => simp [leavesOfFields, ih]

theorem gap_nil : Gap [] := by rintro _ ⟨⟩

theorem gap_newline (level : Nat) : Gap (newline level) := by
  rintro c member
  rcases List.mem_cons.mp member with rfl | member
  · rfl
  · rw [List.eq_of_mem_replicate member]
    rfl

mutual

theorem spells_compact (json : Json) (h : ∀ leaf ∈ leaves json, Spells leaf (scalar leaf)) :
    Spells json (compact json) := by
  cases json with
  | arr items =>
    cases items with
    | nil => exact .noItems
    | cons item rest => exact .arr (spells_compactItems (item :: rest) (by simp) h) gap_nil
  | obj fields =>
    cases fields with
    | nil => exact .noFields
    | cons field rest => exact .obj (spells_compactFields (field :: rest) (by simp) h) gap_nil
  | _ => exact h _ List.mem_cons_self

theorem spells_compactItems (items : List Json) (inhabited : items ≠ [])
    (h : ∀ leaf ∈ leavesOfItems items, Spells leaf (scalar leaf)) :
    SpellsItems items (compactItems items) := by
  cases items with
  | nil => exact absurd rfl inhabited
  | cons item rest =>
    obtain ⟨first, others⟩ := List.forall_mem_append.mp h
    cases rest with
    | nil => exact .last gap_nil (spells_compact item first)
    | cons next rest =>
      exact .more gap_nil (spells_compact item first)
        (spells_compactItems (next :: rest) (by simp) others)

theorem spells_compactFields (fields : List (String × Json)) (inhabited : fields ≠ [])
    (h : ∀ leaf ∈ leavesOfFields fields, Spells leaf (scalar leaf)) :
    SpellsFields fields (compactFields fields) := by
  cases fields with
  | nil => exact absurd rfl inhabited
  | cons field rest =>
    obtain ⟨name, value⟩ := field
    obtain ⟨first, others⟩ := List.forall_mem_append.mp h
    cases rest with
    | nil => exact .last gap_nil gap_nil (spells_compact value first)
    | cons next rest =>
      exact .more gap_nil gap_nil (spells_compact value first)
        (spells_compactFields (next :: rest) (by simp) others)

end

theorem gap_space : Gap [' '] := by
  rintro _ (_ | ⟨_, ⟨⟩⟩)
  rfl

mutual

theorem spells_pretty (level : Nat) (json : Json)
    (h : ∀ leaf ∈ leaves json, Spells leaf (scalar leaf)) : Spells json (pretty level json) := by
  cases json with
  | arr items =>
    cases items with
    | nil => exact .noItems
    | cons item rest =>
      rw [pretty, List.append_assoc]
      · exact .arr (spells_prettyItems (level + 1) (item :: rest) (by simp) h) (gap_newline level)
      · simp
  | obj fields =>
    cases fields with
    | nil => exact .noFields
    | cons field rest =>
      rw [pretty, List.append_assoc]
      · exact .obj (spells_prettyFields (level + 1) (field :: rest) (by simp) h) (gap_newline level)
      · simp
  | _ => exact h _ List.mem_cons_self

theorem spells_prettyItems (level : Nat) (items : List Json) (inhabited : items ≠ [])
    (h : ∀ leaf ∈ leavesOfItems items, Spells leaf (scalar leaf)) :
    SpellsItems items (prettyItems level items) := by
  cases items with
  | nil => exact absurd rfl inhabited
  | cons item rest =>
    obtain ⟨first, others⟩ := List.forall_mem_append.mp h
    cases rest with
    | nil => exact .last (gap_newline level) (spells_pretty level item first)
    | cons next rest =>
      rw [prettyItems, List.append_assoc]
      · exact .more (gap_newline level) (spells_pretty level item first)
          (spells_prettyItems level (next :: rest) (by simp) others)
      · simp

theorem spells_prettyFields (level : Nat) (fields : List (String × Json))
    (inhabited : fields ≠ [])
    (h : ∀ leaf ∈ leavesOfFields fields, Spells leaf (scalar leaf)) :
    SpellsFields fields (prettyFields level fields) := by
  cases fields with
  | nil => exact absurd rfl inhabited
  | cons field rest =>
    obtain ⟨name, value⟩ := field
    obtain ⟨first, others⟩ := List.forall_mem_append.mp h
    cases rest with
    | nil =>
      rw [prettyFields, List.append_assoc]
      exact .last (gap_newline level) gap_space (spells_pretty level value first)
    | cons next rest =>
      rw [prettyFields, List.append_assoc]
      · exact .more (gap_newline level) gap_space (spells_pretty level value first)
          (spells_prettyFields level (next :: rest) (by simp) others)
      · simp

end

/-- What has a text of its own: a whole number needs 64 bits, and a double must be finite. -/
def HasText : Json → Prop
  | null | bool _ | str _ => True
  | int n => Int64.minValue.toInt ≤ n ∧ n < UInt64.size
  | float x => x.isFinite
  | arr _ | obj _ | garbled => False

theorem spells_scalar {leaf : Json} (h : leaf.HasText)
    (legible : ∀ x, leaf = .float x → Legible x) : Spells leaf (scalar leaf) := by
  cases leaf with
  | null => exact .null
  | bool value =>
    cases value
    · exact .false
    · exact .true
  | int n =>
    obtain ⟨number, cut, same⟩ := numeral_scalar_int h.1 h.2
    exact .number cut same
  | float x =>
    obtain ⟨number, cut, same⟩ := numeral_scalar_float h (legible x rfl)
    exact .number cut same
  | str text => exact .str text
  | arr items => exact h.elim
  | obj fields => exact h.elim
  | garbled => exact h.elim

/-- All that stands in the document has a text of its own. -/
def Textual (json : Json) : Prop :=
  ∀ leaf ∈ json.leaves, leaf.HasText

def doubles (json : Json) : List Float :=
  json.leaves.filterMap double?

variable {json : Json}

/-- Written without white space or one item a line, a document is read as it was. -/
theorem parse?_text (h : json.Textual) (legible : ∀ x ∈ json.doubles, x.isFinite → Legible x) :
    parse? json.compactText = some json ∧ parse? json.prettyText = some json := by
  have spelled : ∀ leaf ∈ json.leaves, Spells leaf (scalar leaf) := by
    intro leaf member
    refine spells_scalar (h leaf member) ?_
    rintro x rfl
    exact legible x (List.mem_filterMap.mpr ⟨_, member, rfl⟩) (h _ member)
  constructor
  · refine parse?_of_spells ?_
    rw [compactText, String.toList_ofList]
    exact spells_compact json spelled
  · refine parse?_of_spells ?_
    rw [prettyText, String.toList_ofList]
    exact spells_pretty 0 json spelled

@[simp] theorem textual_arr {items : List Json} :
    (arr items).Textual ↔ ∀ item ∈ items, item.Textual := by
  simp only [Textual, leaves, mem_leavesOfItems, forall_exists_index, and_imp]
  exact forall_comm.trans (forall_congr' fun _ => forall_comm)

@[simp] theorem textual_obj {fields : List (String × Json)} :
    (obj fields).Textual ↔ ∀ field ∈ fields, field.2.Textual := by
  simp only [Textual, leaves, mem_leavesOfFields, forall_exists_index, and_imp]
  exact forall_comm.trans (forall_congr' fun _ => forall_comm)

@[simp] theorem textual_str (text : String) : (str text).Textual := by
  simp [Textual, leaves, HasText]

@[simp] theorem textual_bool (value : Bool) : (bool value).Textual := by
  simp [Textual, leaves, HasText]

@[simp] theorem textual_float {x : Float} : (float x).Textual ↔ x.isFinite := by
  simp [Textual, leaves, HasText]

@[simp] theorem textual_int {n : Int} :
    (int n).Textual ↔ Int64.minValue.toInt ≤ n ∧ n < UInt64.size := by
  simp [Textual, leaves, HasText]

end Statline.Json
