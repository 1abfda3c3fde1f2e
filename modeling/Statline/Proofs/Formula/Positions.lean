import Statline.Proofs.Formula.Record
import Statline.Proofs.InPlace
import Statline.Proofs.Table

namespace Statline

/-- A formula sheet that finds its formulas by the positions at which they stand. -/
structure IndexedSheet where
  formulas : List Formula
  positions : Table Nat
  order : Option (List String)

namespace IndexedSheet

open FormulaSheet (Call Answer)

def empty : IndexedSheet := ⟨[], Table.empty, none⟩

def formula? (sheet : IndexedSheet) (name : String) : Option Formula :=
  (sheet.positions.get? name).bind (sheet.formulas[·]?)

def contains (sheet : IndexedSheet) (name : String) : Bool :=
  sheet.positions.contains name

def graph (sheet : IndexedSheet) : Graph :=
  let nodes := sheet.formulas.foldl (fun graph formula => (graph.addNode formula.name).1)
    Graph.empty
  sheet.formulas.foldl
    (fun graph formula =>
      (formula.deps.filter sheet.contains).foldl
        (fun graph dep => graph.addDependency formula.name dep) graph)
    nodes

def add (formula : Formula) : InPlace IndexedSheet Answer := do
  ofExcept formula.validate
  if (← get).contains formula.name then throw (.duplicateFormula formula.name)
  modify fun sheet =>
    { sheet with positions := sheet.positions.insert formula.name sheet.formulas.length }
  modify fun sheet => { sheet with formulas := sheet.formulas ++ [formula] }
  modify ({ · with order := none })
  return .added formula

def known {α : Type} (name : String) : Option α → Except Fault α
  | some value => .ok value
  | none => .error (.unknownFormula name)

/-- What stands behind the removed formula moves up by one position. No stored position is outside
the list: what it would answer there is never asked. -/
def takeOut (name : String) (position : Nat) : InPlace IndexedSheet Answer := do
  let formula ← ofExcept (known name (← get).formulas[position]?)
  modify fun sheet => { sheet with formulas := sheet.formulas.eraseIdx position }
  modify fun sheet =>
    { sheet with
      positions := sheet.positions.map fun other => if position < other then other - 1 else other }
  modify ({ · with order := none })
  return .removed formula

/-- The name is given up before it turns out whether it has a position. -/
def remove (name : String) : InPlace IndexedSheet Answer := do
  let found := (← get).positions.get? name
  modify fun sheet => { sheet with positions := sheet.positions.erase name }
  let position ← ofExcept (known name found)
  takeOut name position

/-- The old order is given up before the new one is known. -/
def build : InPlace IndexedSheet Answer := do
  modify ({ · with order := none })
  let order ← ofExcept (← get).graph.order
  modify ({ · with order := some order })
  return .built order

def inPlace : Call → InPlace IndexedSheet Answer
  | .add formula => add formula
  | .remove name => remove name
  | .build => build

def afterAll (calls : List Call) : IndexedSheet :=
  calls.foldl (fun sheet made => ((inPlace made).run sheet).2) empty

variable {sheet : IndexedSheet} {formula : Formula} {name : String} {fault : Fault} {position : Nat}

theorem run_add_of_invalid (h : formula.validate = .error fault) :
    (add formula).run sheet = (.error fault, sheet) := by
  rw [add, h]
  rfl

theorem run_add_of_taken (valid : formula.validate = .ok ())
    (taken : sheet.contains formula.name = true) :
    (add formula).run sheet = (.error (.duplicateFormula formula.name), sheet) := by
  rw [add, valid]
  exact congrFun (if_pos taken) sheet

theorem run_add_of_new (valid : formula.validate = .ok ())
    (new : sheet.contains formula.name = false) :
    (add formula).run sheet = (.ok (.added formula),
      ⟨sheet.formulas ++ [formula],
        sheet.positions.insert formula.name sheet.formulas.length, none⟩) := by
  rw [add, valid]
  exact congrFun (if_neg (Bool.eq_false_iff.mp new)) sheet

theorem run_remove (name : String) (sheet : IndexedSheet) :
    (remove name).run sheet =
      (ofExcept (known name (sheet.positions.get? name)) >>= takeOut name :
        InPlace IndexedSheet Answer).run { sheet with positions := sheet.positions.erase name } :=
  rfl

theorem run_remove_of_unknown (h : sheet.positions.get? name = none) :
    (remove name).run sheet =
      (.error (.unknownFormula name), { sheet with positions := sheet.positions.erase name }) := by
  rw [run_remove, h]
  rfl

theorem run_remove_of_known (h : sheet.positions.get? name = some position)
    (stands : sheet.formulas[position]? = some formula) :
    (remove name).run sheet = (.ok (.removed formula),
      ⟨sheet.formulas.eraseIdx position,
        (sheet.positions.erase name).map fun other =>
          if position < other then other - 1 else other, none⟩) := by
  rw [run_remove, h]
  change (ofExcept (known name sheet.formulas[position]?) >>= fun formula => _ :
    InPlace IndexedSheet Answer).run { sheet with positions := sheet.positions.erase name } = _
  rw [stands]
  rfl

theorem run_build (sheet : IndexedSheet) :
    build.run sheet = (sheet.graph.order.map .built,
      { sheet with order := sheet.graph.order.toOption }) := by
  change (ofExcept sheet.graph.order >>= fun order => _ :
    InPlace IndexedSheet Answer).run { sheet with order := none } = _
  cases sheet.graph.order <;> rfl

end IndexedSheet

namespace FormulaSheet

variable {sheet : FormulaSheet} {formula : Formula} {name other : String} {made : Call}
  {fault : Fault}

/-- The sheet with the position of each of its formulas. -/
def indexed (sheet : FormulaSheet) : IndexedSheet :=
  ⟨sheet.formulas, Table.tabulate sheet.names sheet.names.idxOf, sheet.order⟩

theorem get?_positions (sheet : FormulaSheet) (name : String) :
    sheet.indexed.positions.get? name =
      if name ∈ sheet.names then some (sheet.names.idxOf name) else none :=
  Table.get?_tabulate _ _ _

theorem contains_indexed (sheet : FormulaSheet) (name : String) :
    sheet.indexed.contains name = sheet.contains name := by
  rw [Bool.eq_iff_iff, contains_eq_true, IndexedSheet.contains, Table.contains, get?_positions]
  split <;> simp_all

theorem graph_indexed (sheet : FormulaSheet) : sheet.indexed.graph = sheet.graph := by
  unfold IndexedSheet.graph
  rw [funext (contains_indexed sheet)]
  rfl

theorem getElem?_idxOf (formulas : List Formula) (name : String) :
    formulas[(formulas.map (·.name)).idxOf name]? = formulas.find? (·.name = name) := by
  induction formulas with
  | nil => rfl
  | cons first rest ih =>
    by_cases same : first.name = name
    · simp [same]
    · simp [same, List.idxOf_cons_ne, ih]

theorem formula?_eq_none (absent : name ∉ sheet.names) : sheet.formula? name = none := by
  refine List.find?_eq_none.mpr fun formula member same => absent ?_
  exact List.mem_map.mpr ⟨formula, member, of_decide_eq_true same⟩

theorem formula?_indexed (sheet : FormulaSheet) (name : String) :
    sheet.indexed.formula? name = sheet.formula? name := by
  rw [IndexedSheet.formula?, get?_positions]
  split
  next => exact getElem?_idxOf sheet.formulas name
  next absent => exact (formula?_eq_none absent).symm

/-- A stored position is that of the formula of that name. -/
theorem get?_positions_eq_some (distinct : sheet.names.Nodup) {position : Nat} :
    sheet.indexed.positions.get? name = some position ↔
      ∃ formula, sheet.formulas[position]? = some formula ∧ formula.name = name := by
  have named : (∃ formula, sheet.formulas[position]? = some formula ∧ formula.name = name) ↔
      sheet.names[position]? = some name := by
    simp [names]
  rw [named, get?_positions]
  constructor
  · intro stored
    split at stored
    next member =>
      obtain rfl := Option.some.inj stored
      exact List.getElem?_idxOf member
    next => cases stored
  · intro stands
    obtain ⟨inside, rfl⟩ := List.getElem?_eq_some_iff.mp stands
    rw [if_pos (List.getElem_mem inside), distinct.idxOf_getElem]

theorem indexed_concat (new : formula.name ∉ sheet.names) :
    indexed ⟨sheet.formulas ++ [formula], none⟩ =
      ⟨sheet.formulas ++ [formula],
        sheet.indexed.positions.insert formula.name sheet.formulas.length, none⟩ := by
  refine (IndexedSheet.mk.injEq ..).mpr ⟨rfl, Table.ext_get? fun other => ?_, rfl⟩
  change (indexed ⟨sheet.formulas ++ [formula], none⟩).positions.get? other = _
  rw [Table.get?_insert, get?_positions, get?_positions]
  have all : names ⟨sheet.formulas ++ [formula], none⟩ = sheet.names ++ [formula.name] :=
    List.map_append
  have count : sheet.names.length = sheet.formulas.length := List.length_map _
  rw [all, ← count]
  by_cases last : other = formula.name
  · subst last
    simp [List.idxOf_append_of_notMem new]
  · by_cases member : other ∈ sheet.names
    · simp [last, member, List.idxOf_append_of_mem member]
    · simp [last, member]

theorem eraseIdx_idxOf {formulas : List Formula} (distinct : (formulas.map (·.name)).Nodup)
    (name : String) :
    formulas.eraseIdx ((formulas.map (·.name)).idxOf name) = formulas.filter (·.name ≠ name) := by
  induction formulas with
  | nil => rfl
  | cons first rest ih =>
    obtain ⟨fresh, distinct⟩ := List.nodup_cons.mp distinct
    by_cases same : first.name = name
    · subst same
      have kept : rest.filter (·.name ≠ first.name) = rest := by
        refine List.filter_eq_self.mpr fun other member => decide_eq_true fun again => fresh ?_
        exact List.mem_map.mpr ⟨other, member, again⟩
      simpa using kept.symm
    · simpa [same, List.idxOf_cons_ne] using ih distinct

/-- Without one of the names those behind it stand one position earlier. -/
theorem idxOf_filter_ne {names : List String} (distinct : names.Nodup) (apart : other ≠ name) :
    (names.filter (· ≠ name)).idxOf other =
      if names.idxOf name < names.idxOf other then names.idxOf other - 1
      else names.idxOf other := by
  induction names with
  | nil => rfl
  | cons first rest ih =>
    obtain ⟨fresh, distinct⟩ := List.nodup_cons.mp distinct
    by_cases gone : first = name
    · subst gone
      have kept : rest.filter (· ≠ first) = rest := List.filter_eq_self.mpr fun other member =>
        decide_eq_true fun again => fresh (again ▸ member)
      rw [List.filter_cons_of_neg (by simp), kept, List.idxOf_cons_self,
        List.idxOf_cons_ne _ apart.symm]
      simp
    · rw [List.filter_cons_of_pos (by simpa using gone), List.idxOf_cons_ne _ gone]
      by_cases here : first = other
      · subst here
        simp
      · rw [List.idxOf_cons_ne _ here, List.idxOf_cons_ne _ here, ih distinct]
        split <;> split <;> omega

theorem names_remove (sheet : FormulaSheet) (name : String) :
    names ⟨sheet.formulas.filter (·.name ≠ name), none⟩ = sheet.names.filter (· ≠ name) := by
  rw [names, names, List.filter_map]
  rfl

theorem indexed_filter (distinct : sheet.names.Nodup) (name : String) :
    indexed ⟨sheet.formulas.filter (·.name ≠ name), none⟩ =
      ⟨sheet.formulas.eraseIdx (sheet.names.idxOf name),
        (sheet.indexed.positions.erase name).map fun other =>
          if sheet.names.idxOf name < other then other - 1 else other, none⟩ := by
  refine (IndexedSheet.mk.injEq ..).mpr
    ⟨(eraseIdx_idxOf distinct name).symm, Table.ext_get? fun other => ?_, rfl⟩
  change (indexed ⟨sheet.formulas.filter (·.name ≠ name), none⟩).positions.get? other = _
  rw [Table.get?_map, Table.get?_erase, get?_positions, get?_positions, names_remove]
  by_cases gone : other = name
  · simp [gone]
  · by_cases member : other ∈ sheet.names
    · have kept : other ∈ sheet.names.filter (· ≠ name) := by simp [gone, member]
      simp only [kept, gone, member, ↓reduceIte, idxOf_filter_ne distinct gone, Option.map_some]
    · simp [gone, member]

theorem run_add (sheet : FormulaSheet) (formula : Formula) :
    (IndexedSheet.add formula).run sheet.indexed =
      ((sheet.perform (.add formula)).1, (sheet.perform (.add formula)).2.indexed) := by
  cases valid : formula.validate with
  | error fault =>
    have refused : sheet.add formula = .error fault := by rw [FormulaSheet.add, valid]; rfl
    rw [IndexedSheet.run_add_of_invalid valid, perform, refused]
  | ok _ =>
    cases taken : sheet.contains formula.name with
    | true =>
      have refused : sheet.add formula = .error (.duplicateFormula formula.name) := by
        rw [FormulaSheet.add, valid]
        exact if_pos taken
      rw [IndexedSheet.run_add_of_taken valid (by rwa [contains_indexed]), perform, refused]
    | false =>
      have added : sheet.add formula = .ok ⟨sheet.formulas ++ [formula], none⟩ := by
        rw [FormulaSheet.add, valid]
        exact if_neg (Bool.eq_false_iff.mp taken)
      have new : formula.name ∉ sheet.names := fun member =>
        Bool.eq_false_iff.mp taken (contains_eq_true.mpr member)
      rw [IndexedSheet.run_add_of_new valid (by rwa [contains_indexed]), perform, added]
      exact congrArg (Prod.mk _) (indexed_concat new).symm

theorem run_remove (distinct : sheet.names.Nodup) (name : String) :
    (IndexedSheet.remove name).run sheet.indexed =
      ((sheet.perform (.remove name)).1, (sheet.perform (.remove name)).2.indexed) := by
  cases found : sheet.formula? name with
  | none =>
    have absent : name ∉ sheet.names := fun member => by
      obtain ⟨formula, stands, same⟩ := List.mem_map.mp member
      have held := formula?_of_mem distinct stands
      rw [same, found] at held
      cases held
    have unknown : sheet.indexed.positions.get? name = none := by
      rw [get?_positions, if_neg absent]
    have same : sheet.indexed.positions.erase name = sheet.indexed.positions :=
      Table.erase_of_get?_eq_none unknown
    rw [IndexedSheet.run_remove_of_unknown unknown, perform, FormulaSheet.remove, found, same]
  | some formula =>
    obtain ⟨member, rfl⟩ := mem_of_formula? found
    have stored : sheet.indexed.positions.get? formula.name =
        some (sheet.names.idxOf formula.name) := by
      have listed : formula.name ∈ sheet.names := List.mem_map_of_mem member
      rw [get?_positions, if_pos listed]
    have stands : sheet.indexed.formulas[sheet.names.idxOf formula.name]? = some formula :=
      (getElem?_idxOf sheet.formulas formula.name).trans found
    rw [IndexedSheet.run_remove_of_known stored stands, perform, FormulaSheet.remove, found]
    exact congrArg (Prod.mk _) (indexed_filter distinct formula.name).symm

theorem run_build (sheet : FormulaSheet) :
    IndexedSheet.build.run sheet.indexed =
      ((sheet.perform .build).1, (sheet.perform .build).2.indexed) := by
  rw [IndexedSheet.run_build, graph_indexed, perform, FormulaSheet.build]
  cases sheet.graph.order <;> rfl

/-- The positions follow every change of the formulas. -/
theorem run_inPlace (distinct : sheet.names.Nodup) (made : Call) :
    (IndexedSheet.inPlace made).run sheet.indexed =
      ((sheet.perform made).1, (sheet.perform made).2.indexed) := by
  cases made with
  | add formula => exact run_add sheet formula
  | remove name => exact run_remove distinct name
  | build => exact run_build sheet

/-- By induction on the calls, from any sheet that a record accounts for: its names differ. -/
theorem afterAll_indexed (calls : List Call) :
    IndexedSheet.afterAll calls = (afterAll calls).indexed := by
  suffices general : ∀ (sheet : FormulaSheet) log, sheet.Recorded log →
      calls.foldl (fun indexed made => ((IndexedSheet.inPlace made).run indexed).2) sheet.indexed =
        (calls.foldl (fun sheet made => (sheet.perform made).2) sheet).indexed from
    general empty [] recorded_empty
  induction calls with
  | nil => exact fun _ _ _ => rfl
  | cons made rest ih =>
    intro sheet log recorded
    rw [List.foldl_cons, List.foldl_cons, run_inPlace recorded.sound.distinct]
    exact ih _ _ (recorded.perform made)

theorem perform_of_error (h : (sheet.perform made).1 = .error fault) :
    (sheet.perform made).2 = if made = .build then { sheet with order := none } else sheet := by
  rcases sheet.perform_cases made with ⟨_, _, _, same⟩ | ⟨_, _, _, same⟩ | ⟨_, _, _, same⟩ |
    ⟨_, rfl, same⟩ | ⟨_, change, same⟩ <;> rw [same] at h ⊢
  · cases h
  · cases h
  · cases h
  · rfl
  · rw [if_neg change]

theorem formula?_eq_some (distinct : sheet.names.Nodup) :
    sheet.formula? name = some formula ↔ formula ∈ sheet.formulas ∧ formula.name = name :=
  ⟨mem_of_formula?, fun ⟨member, named⟩ => named ▸ formula?_of_mem distinct member⟩

/-- Whatever calls came before, refused ones among them: the names differ, and a formula is found
under its name and no other. The formulas are those that were added and not removed since, in the
order in which they were added. A call that is refused changes nothing, but for the order that is
built anew. There is an order as long as the last one that was built stands: it lists each formula
once and after all that it declares. And a sheet that finds its formulas by their positions gives
the same answers, whatever was removed before them. -/
theorem positions_after_calls (calls : List Call) :
    let sheet := afterAll calls
    let indexed := IndexedSheet.afterAll calls
    let log := empty.record calls
    sheet.names.Nodup ∧
    (∀ name, sheet.contains name = true ↔ ∃ formula ∈ sheet.formulas, formula.name = name) ∧
    (∀ name formula, sheet.formula? name = some formula ↔
      formula ∈ sheet.formulas ∧ formula.name = name) ∧
    sheet.formulas = standing (·.name) (log.filterMap move?) ∧
    (∀ made fault, (sheet.perform made).1 = .error fault →
      (sheet.perform made).2 = if made = .build then { sheet with order := none } else sheet) ∧
    (∀ order, sheet.order = some order ↔ StandsBuilt order log) ∧
    (∀ order, sheet.order = some order → order.Perm sheet.names ∧
      ∀ formula ∈ sheet.formulas, ∀ dep ∈ formula.deps, dep ∈ sheet.names →
        order.idxOf dep < order.idxOf formula.name) ∧
    indexed.formulas = sheet.formulas ∧ indexed.order = sheet.order ∧
    (∀ name position, indexed.positions.get? name = some position ↔
      ∃ formula, sheet.formulas[position]? = some formula ∧ formula.name = name) ∧
    (∀ name, indexed.contains name = sheet.contains name ∧
      indexed.formula? name = sheet.formula? name) ∧
    ∀ made, ((IndexedSheet.inPlace made).run indexed).1 = (sheet.perform made).1 ∧
      ∀ fault, (sheet.perform made).1 = .error fault →
        ((IndexedSheet.inPlace made).run indexed).2 =
          if made = .build then { indexed with order := none } else indexed := by
  intro sheet indexed log
  have recorded : sheet.Recorded log := recorded_afterAll calls
  have distinct : sheet.names.Nodup := recorded.sound.distinct
  have same : indexed = sheet.indexed := afterAll_indexed calls
  rw [same]
  refine ⟨distinct, ?_, fun name formula => formula?_eq_some distinct, recorded.formulas,
    fun made fault => perform_of_error, recorded.order, ?_, rfl, rfl,
    fun name position => get?_positions_eq_some distinct,
    fun name => ⟨contains_indexed sheet name, formula?_indexed sheet name⟩, ?_⟩
  · intro name
    rw [contains_eq_true, names, List.mem_map]
  · intro order held
    have sorted := recorded.sorted order held
    exact ⟨recorded.sound.perm_of_order sorted,
      fun formula member dep => idxOf_lt_idxOf sorted member⟩
  · intro made
    rw [run_inPlace distinct]
    refine ⟨rfl, fun fault failed => ?_⟩
    rw [perform_of_error failed]
    split <;> rfl

/-- The first formula is removed, and those behind it move up. -/
example :
    (IndexedSheet.afterAll [.add ⟨"attack", [], []⟩, .add ⟨"damage", [], []⟩,
      .add ⟨"rating", [], []⟩, .remove "attack"]).positions.entries =
      [("damage", 0), ("rating", 1)] := by
  decide +kernel

end FormulaSheet

end Statline
