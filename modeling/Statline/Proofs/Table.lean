import Mathlib.Data.List.Sort
import Statline.Table

namespace Statline.Table

variable {α β : Type} {table other : Table α} {name : String} {value : α}

theorem get?_eq_some_iff : table.get? name = some value ↔ (name, value) ∈ table.entries := by
  obtain ⟨entries, ascending⟩ := table
  simp only [get?]
  induction entries with
  | nil => simp [find]
  | cons entry rest ih =>
    obtain ⟨key, old⟩ := entry
    obtain ⟨first, tail⟩ := List.pairwise_cons.mp ascending
    by_cases same : key = name
    · subst same
      have absent : (key, value) ∉ rest := fun member =>
        String.lt_irrefl key (first (key, value) member)
      simp [find, absent, eq_comm]
    · simp [find, same, Ne.symm same, ih tail]

theorem find_eq_none {entries : List (String × α)} (h : ∀ entry ∈ entries, name < entry.1) :
    find name entries = none := by
  induction entries with
  | nil => rfl
  | cons entry rest ih =>
    obtain ⟨first, tail⟩ := List.forall_mem_cons.mp h
    have apart : entry.1 ≠ name := fun same => String.lt_irrefl name (same ▸ first)
    rw [find, if_neg apart, ih tail]

theorem get?_filter (table : Table α) (keep : α → Bool) (name : String) :
    (table.filter keep).get? name = (table.get? name).filter keep := by
  refine Option.ext fun value => ?_
  rw [Option.filter_eq_some_iff, get?_eq_some_iff, get?_eq_some_iff, filter, List.mem_filter]

theorem get?_filterMap (table : Table α) (f : String → α → Option β) (name : String) :
    (table.filterMap f).get? name = (table.get? name).bind (f name) := by
  refine Option.ext fun value => ?_
  simp only [get?_eq_some_iff, filterMap, List.mem_filterMap, Option.bind_eq_some_iff,
    Option.map_eq_some_iff, Prod.mk.injEq, Prod.exists]
  constructor
  · rintro ⟨_, old, member, new, made, rfl, rfl⟩
    exact ⟨old, member, made⟩
  · rintro ⟨old, member, made⟩
    exact ⟨name, old, member, value, made, rfl, rfl⟩

theorem get?_map (table : Table α) (f : α → β) (name : String) :
    (table.map f).get? name = (table.get? name).map f := by
  rw [map, get?_filterMap]
  cases table.get? name <;> rfl

theorem nodup_entries (table : Table α) : table.entries.Nodup :=
  table.ascending.imp fun below same => by simp [same] at below

theorem ext_get? (h : ∀ name, table.get? name = other.get? name) : table = other := by
  have members : ∀ entry, entry ∈ table.entries ↔ entry ∈ other.entries := by
    rintro ⟨name, value⟩
    rw [← get?_eq_some_iff, h name, get?_eq_some_iff]
  have perm : table.entries.Perm other.entries :=
    (List.perm_ext_iff_of_nodup table.nodup_entries other.nodup_entries).mpr members
  have entries : table.entries = other.entries := by
    refine perm.eq_of_pairwise ?_ table.ascending other.ascending
    intro a b _ _ hab hba
    exact absurd (String.lt_trans hab hba) (String.lt_irrefl _)
  obtain ⟨_, _⟩ := table
  obtain ⟨_, _⟩ := other
  cases entries
  rfl

theorem erase_of_get?_eq_none (h : table.get? name = none) : table.erase name = table := by
  refine ext_get? fun other => ?_
  rw [get?_erase]
  split
  next same => rw [same, h]
  next => rfl

theorem get?_merge (table newer : Table α) (name : String) :
    (table.merge newer).get? name = (newer.get? name).or (table.get? name) := by
  obtain ⟨entries, ascending⟩ := newer
  simp only [merge, get?]
  induction entries generalizing table with
  | nil => rfl
  | cons entry rest ih =>
    obtain ⟨key, value⟩ := entry
    obtain ⟨first, tail⟩ := List.pairwise_cons.mp ascending
    have inserted : find name (table.insert key value).entries =
        if name = key then some value else find name table.entries :=
      table.get?_insert key name value
    rw [List.foldl_cons, ih _ tail, inserted, find]
    by_cases same : key = name
    · subst same
      simp [find_eq_none first]
    · simp [same, Ne.symm same]

theorem empty_merge (table : Table α) : empty.merge table = table :=
  ext_get? fun name => (get?_merge empty table name).trans Option.or_none

theorem ofList_entries (table : Table α) : ofList table.entries = table :=
  table.empty_merge

theorem filter_filter_of_imp {keep later : α → Bool} (h : ∀ value, later value → keep value) :
    (table.filter keep).filter later = table.filter later := by
  refine ext_get? fun name => Option.ext fun value => ?_
  simp only [get?_filter, Option.filter_eq_some_iff]
  exact ⟨fun kept => ⟨kept.1.1, kept.2⟩, fun kept => ⟨⟨kept.1, h value kept.2⟩, kept.2⟩⟩

theorem filter_insert_filter (table : Table α) (keep : α → Bool) (name : String) (value : α) :
    ((table.filter keep).insert name value).filter keep =
      (table.insert name value).filter keep := by
  refine ext_get? fun other => ?_
  simp only [get?_filter, get?_insert]
  split
  next => rfl
  next => cases table.get? other <;> simp

theorem filter_erase_filter (table : Table α) (keep : α → Bool) (name : String) :
    ((table.filter keep).erase name).filter keep = (table.erase name).filter keep := by
  refine ext_get? fun other => ?_
  simp only [get?_filter, get?_erase]
  split
  next => rfl
  next => cases table.get? other <;> simp

/-- What is not kept may as well be taken out first. -/
theorem filter_erase_of_dropped {keep : α → Bool}
    (h : ∀ value, table.get? name = some value → keep value = false) :
    (table.erase name).filter keep = table.filter keep := by
  refine ext_get? fun other => ?_
  simp only [get?_filter, get?_erase]
  split
  next same =>
    subst same
    cases found : table.get? other with
    | none => rfl
    | some value => simp [Option.filter, h value found]
  next => rfl

theorem contains_iff_mem_entries :
    table.contains name = true ↔ ∃ value, (name, value) ∈ table.entries := by
  simp only [contains, Option.isSome_iff_exists, get?_eq_some_iff]

theorem size_insert (table : Table α) (name : String) (value : α) :
    (table.insert name value).size = (table.erase name).size + 1 := by
  have fresh : ((name, value) :: (table.erase name).entries).Nodup := by
    refine List.nodup_cons.mpr ⟨?_, nodup_entries _⟩
    simp [erase]
  have members : ∀ entry, entry ∈ (table.insert name value).entries ↔
      entry ∈ (name, value) :: (table.erase name).entries := by
    rintro ⟨other, held⟩
    rw [List.mem_cons, ← get?_eq_some_iff, ← get?_eq_some_iff, get?_insert, get?_erase]
    by_cases same : other = name
    · simp [same, eq_comm]
    · simp [same]
  exact ((List.perm_ext_iff_of_nodup (nodup_entries _) fresh).mpr members).length_eq

theorem size_filter_le (table : Table α) (keep : α → Bool) :
    (table.filter keep).size ≤ table.size :=
  List.length_filter_le _ _

theorem size_filter_lt {keep : α → Bool} (held : table.get? name = some value)
    (dropped : keep value = false) : (table.filter keep).size < table.size := by
  refine List.length_filter_lt_length_iff_exists.mpr ⟨_, get?_eq_some_iff.mp held, ?_⟩
  simp [dropped]

theorem filter_eq_of_size_le {keep : α → Bool} (h : table.size ≤ (table.filter keep).size) :
    table.filter keep = table := by
  refine ext_get? fun name => Option.ext fun value => ?_
  rw [get?_filter, Option.filter_eq_some_iff, and_iff_left_iff_imp]
  intro held
  by_contra dropped
  have fewer : (table.filter keep).size < table.size :=
    size_filter_lt held (Bool.eq_false_iff.mpr dropped)
  omega

theorem size_erase_le (table : Table α) (name : String) : (table.erase name).size ≤ table.size :=
  List.length_filter_le _ _

theorem size_erase_lt (h : table.contains name = true) : (table.erase name).size < table.size := by
  obtain ⟨value, member⟩ := contains_iff_mem_entries.mp h
  exact List.length_filter_lt_length_iff_exists.mpr ⟨_, member, by simp⟩

theorem size_insert_le (table : Table α) (name : String) (value : α) :
    (table.insert name value).size ≤ table.size + 1 := by
  rw [size_insert]
  exact Nat.succ_le_succ (table.size_erase_le name)

theorem size_insert_of_contains (h : table.contains name = true) (value : α) :
    (table.insert name value).size ≤ table.size := by
  rw [size_insert]
  exact size_erase_lt h

/-- All that is filed under a name is as `P` asks. -/
def Every (P : String → α → Prop) (table : Table α) : Prop :=
  ∀ name value, table.get? name = some value → P name value

variable {P : String → α → Prop}

theorem every_empty : (empty : Table α).Every P := by
  intro name value found
  cases found

theorem Every.insert (h : table.Every P) (new : P name value) :
    (table.insert name value).Every P := by
  intro other found held
  rw [get?_insert] at held
  split at held
  next same =>
    cases held
    exact same ▸ new
  next => exact h other found held

theorem Every.erase (h : table.Every P) (name : String) : (table.erase name).Every P := by
  intro other found held
  rw [get?_erase] at held
  split at held
  next => cases held
  next => exact h other found held

theorem Every.merge (h : table.Every P) (new : other.Every P) : (table.merge other).Every P :=
  List.foldlRecOn other.entries _ h fun _ merged entry member =>
    merged.insert (new entry.1 entry.2 (get?_eq_some_iff.mpr member))

end Statline.Table
