namespace Statline

/-- Values filed under names, in ascending order of the names. -/
structure Table (α : Type) where
  entries : List (String × α)
  ascending : entries.Pairwise fun a b => a.1 < b.1
deriving DecidableEq

namespace Table

variable {α β : Type}

def find (name : String) : List (String × α) → Option α
  | [] => none
  | (key, value) :: rest => if key = name then some value else find name rest

def put (name : String) (value : α) : List (String × α) → List (String × α)
  | [] => [(name, value)]
  | (key, old) :: rest =>
    if name < key then (name, value) :: (key, old) :: rest
    else if key = name then (name, value) :: rest
    else (key, old) :: put name value rest

theorem find_put (name other : String) (value : α) (entries : List (String × α)) :
    find other (put name value entries) =
      if other = name then some value else find other entries := by
  induction entries with
  | nil => simp [put, find, eq_comm]
  | cons entry rest ih => grind [put, find]

theorem mem_put {name : String} {value : α} {entries : List (String × α)} {entry : String × α}
    (h : entry ∈ put name value entries) : entry = (name, value) ∨ entry ∈ entries := by
  induction entries with
  | nil => exact Or.inl (by simpa [put] using h)
  | cons first rest ih => grind [put]

theorem put_ascending (name : String) (value : α) {entries : List (String × α)}
    (h : entries.Pairwise fun a b => a.1 < b.1) :
    (put name value entries).Pairwise fun a b => a.1 < b.1 := by
  induction entries with
  | nil => simp [put]
  | cons first rest ih =>
    obtain ⟨key, old⟩ := first
    obtain ⟨head, tail⟩ := List.pairwise_cons.mp h
    by_cases below : name < key
    · simp only [put, below, if_true]
      refine List.pairwise_cons.mpr ⟨fun entry member => ?_, h⟩
      rcases List.mem_cons.mp member with rfl | member
      · exact below
      · exact String.lt_trans below (head entry member)
    · by_cases same : key = name
      · subst same
        simp only [put, below, if_true, if_false]
        exact List.pairwise_cons.mpr ⟨head, tail⟩
      · simp only [put, below, same, if_false]
        refine List.pairwise_cons.mpr ⟨fun entry member => ?_, ih tail⟩
        rcases mem_put member with rfl | member
        · exact String.not_le.mp fun le =>
            same (String.le_antisymm le (String.not_lt.mp below)).symm
        · exact head entry member

def empty : Table α := ⟨[], .nil⟩

instance : EmptyCollection (Table α) := ⟨empty⟩

instance : Inhabited (Table α) := ⟨empty⟩

def get? (table : Table α) (name : String) : Option α :=
  find name table.entries

def contains (table : Table α) (name : String) : Bool :=
  (table.get? name).isSome

def insert (table : Table α) (name : String) (value : α) : Table α :=
  ⟨put name value table.entries, put_ascending name value table.ascending⟩

def erase (table : Table α) (name : String) : Table α :=
  ⟨table.entries.filter (·.1 ≠ name), table.ascending.filter _⟩

def size (table : Table α) : Nat :=
  table.entries.length

def isEmpty (table : Table α) : Bool :=
  table.entries.isEmpty

def keys (table : Table α) : List String :=
  table.entries.map (·.1)

/-- A later value for a name replaces an earlier one. -/
def ofList (pairs : List (String × α)) : Table α :=
  pairs.foldl (fun table pair => table.insert pair.1 pair.2) empty

/-- Writes every entry of `newer` over the entries of `table`. -/
def merge (table newer : Table α) : Table α :=
  newer.entries.foldl (fun merged entry => merged.insert entry.1 entry.2) table

/-- Files `value name` under each of the names. -/
def tabulate (names : List String) (value : String → α) : Table α :=
  names.foldl (fun table name => table.insert name (value name)) empty

theorem pairwise_filterMap {f : String → α → Option β} {entries : List (String × α)}
    (h : entries.Pairwise fun a b => a.1 < b.1) :
    (entries.filterMap fun entry => (f entry.1 entry.2).map (entry.1, ·)).Pairwise
      fun a b => a.1 < b.1 := by
  refine List.pairwise_filterMap.mpr (h.imp ?_)
  intro first second below a ha b hb
  obtain ⟨_, _, rfl⟩ := Option.map_eq_some_iff.mp ha
  obtain ⟨_, _, rfl⟩ := Option.map_eq_some_iff.mp hb
  exact below

/-- Keeps the names to which `f` gives a new value. -/
def filterMap (f : String → α → Option β) (table : Table α) : Table β :=
  ⟨table.entries.filterMap fun entry => (f entry.1 entry.2).map (entry.1, ·),
    pairwise_filterMap table.ascending⟩

def map (f : α → β) (table : Table α) : Table β :=
  table.filterMap fun _ value => some (f value)

def filter (keep : α → Bool) (table : Table α) : Table α :=
  ⟨table.entries.filter fun entry => keep entry.2, table.ascending.filter _⟩

@[simp] theorem get?_empty (name : String) : (empty : Table α).get? name = none := rfl

theorem get?_insert (table : Table α) (name other : String) (value : α) :
    (table.insert name value).get? other =
      if other = name then some value else table.get? other :=
  find_put name other value table.entries

theorem get?_erase (table : Table α) (name other : String) :
    (table.erase name).get? other = if other = name then none else table.get? other := by
  obtain ⟨entries, ascending⟩ := table
  simp only [erase, get?]
  clear ascending
  induction entries with
  | nil => simp [find]
  | cons entry rest ih =>
    obtain ⟨key, value⟩ := entry
    by_cases h : key = name
    · subst h
      by_cases same : other = key
      · simpa [same] using ih
      · simpa [find, same, Ne.symm same] using ih
    · by_cases same : key = other
      · subst same
        simp [find, h]
      · simpa [find, h, same] using ih

theorem get?_tabulate (names : List String) (value : String → α) (name : String) :
    (tabulate names value).get? name = if name ∈ names then some (value name) else none := by
  suffices general : ∀ table : Table α,
      (names.foldl (fun table name => table.insert name (value name)) table).get? name =
        if name ∈ names then some (value name) else table.get? name from general empty
  induction names with
  | nil => simp
  | cons first rest ih =>
    intro table
    rw [List.foldl_cons, ih, get?_insert]
    by_cases h : name = first <;> by_cases member : name ∈ rest <;> simp [h, member]

end Table

end Statline
