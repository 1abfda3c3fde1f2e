import Statline.Proofs.Formula.Sheet
import Statline.Proofs.Standing

namespace Statline.FormulaSheet

/-- A change of the formulas or of their order. -/
inductive Call where
  | add (formula : Formula)
  | remove (name : String)
  | build
deriving DecidableEq

inductive Answer where
  | added (formula : Formula)
  | removed (formula : Formula)
  | built (order : List String)
deriving DecidableEq

/-- How a call ends, and the sheet that it leaves. -/
def perform (sheet : FormulaSheet) : Call → Except Fault Answer × FormulaSheet
  | .add formula =>
    match sheet.add formula with
    | .ok next => (.ok (.added formula), next)
    | .error fault => (.error fault, sheet)
  | .remove name =>
    match sheet.remove name with
    | .ok (formula, next) => (.ok (.removed formula), next)
    | .error fault => (.error fault, sheet)
  | .build => (sheet.build.1.map .built, sheet.build.2)

def afterAll (calls : List Call) : FormulaSheet :=
  calls.foldl (fun sheet made => (sheet.perform made).2) empty

/-- What was asked and what was answered, earliest first. -/
def record (sheet : FormulaSheet) : List Call → List (Call × Except Fault Answer)
  | [] => []
  | made :: rest => (made, (sheet.perform made).1) :: record (sheet.perform made).2 rest

/-- What an answer says about the formulas in the sheet. -/
def move? : Call × Except Fault Answer → Option (Move Formula)
  | (_, .ok (.added formula)) => some (.added formula)
  | (_, .ok (.removed formula)) => some (.removed formula.name)
  | _ => none

/-- The order was built, and since then no other was, and no formula was added or removed. -/
def StandsBuilt (order : List String) (record : List (Call × Except Fault Answer)) : Prop :=
  ∃ before since, record = before ++ (.build, .ok (.built order)) :: since ∧
    ∀ later ∈ since, later.1 ≠ .build ∧ later.2.isOk = false

variable {sheet next : FormulaSheet} {formula : Formula} {name : String} {made : Call}
  {fault : Fault} {order : List String} {log : List (Call × Except Fault Answer)}
  {entry : Call × Except Fault Answer}

theorem standsBuilt_concat :
    StandsBuilt order (log ++ [entry]) ↔ entry = (.build, .ok (.built order)) ∨
      (entry.1 ≠ .build ∧ entry.2.isOk = false ∧ StandsBuilt order log) := by
  constructor
  · rintro ⟨before, since, whole, quiet⟩
    rcases List.eq_nil_or_concat' since with rfl | ⟨rest, last, rfl⟩
    · exact .inl (List.singleton_inj.mp (List.append_inj' whole rfl).2)
    · rw [← List.cons_append, ← List.append_assoc] at whole
      obtain ⟨rfl, same⟩ := List.append_inj' whole rfl
      obtain rfl := List.singleton_inj.mp same
      obtain ⟨unbuilt, failed⟩ := quiet entry (by simp)
      exact .inr ⟨unbuilt, failed, before, rest, rfl, fun later member =>
        quiet later (List.mem_append_left _ member)⟩
  · rintro (rfl | ⟨unbuilt, failed, before, since, rfl, quiet⟩)
    · exact ⟨log, [], rfl, nofun⟩
    · refine ⟨before, since ++ [entry], by simp, fun later member => ?_⟩
      rcases List.mem_append.mp member with member | member
      · exact quiet later member
      · exact List.mem_singleton.mp member ▸ ⟨unbuilt, failed⟩

theorem not_standsBuilt_nil : ¬StandsBuilt order [] := by
  rintro ⟨before, since, whole, _⟩
  cases before <;> cases whole

theorem name_of_remove (h : sheet.remove name = .ok (formula, next)) : formula.name = name := by
  unfold remove at h
  split at h
  next found =>
    cases h
    exact (mem_of_formula? found).2
  next => cases h

/-- All that a call can do to a sheet. -/
theorem perform_cases (sheet : FormulaSheet) (made : Call) :
    (∃ formula next, sheet.add formula = .ok next ∧
      sheet.perform made = (.ok (.added formula), next)) ∨
    (∃ formula next, sheet.remove formula.name = .ok (formula, next) ∧
      sheet.perform made = (.ok (.removed formula), next)) ∨
    (∃ order, made = .build ∧ sheet.graph.order = .ok order ∧
      sheet.perform made = (.ok (.built order), { sheet with order := some order })) ∨
    (∃ fault, made = .build ∧ sheet.perform made = (.error fault, { sheet with order := none })) ∨
    ∃ fault, made ≠ .build ∧ sheet.perform made = (.error fault, sheet) := by
  cases made with
  | add formula =>
    unfold perform
    dsimp only
    split
    next added => exact .inl ⟨formula, _, added, rfl⟩
    next fault _ => exact .inr (.inr (.inr (.inr ⟨fault, nofun, rfl⟩)))
  | remove name =>
    unfold perform
    dsimp only
    split
    next formula _ removed =>
      obtain rfl := name_of_remove removed
      exact .inr (.inl ⟨formula, _, removed, rfl⟩)
    next fault _ => exact .inr (.inr (.inr (.inr ⟨fault, nofun, rfl⟩)))
  | build =>
    unfold perform build
    cases sorted : sheet.graph.order with
    | ok order => exact .inr (.inr (.inl ⟨order, rfl, rfl, rfl⟩))
    | error fault => exact .inr (.inr (.inr (.inl ⟨fault, rfl, rfl⟩)))

/-- The sheet is what the record makes of it. -/
structure Recorded (sheet : FormulaSheet) (log : List (Call × Except Fault Answer)) : Prop where
  sound : sheet.Sound
  formulas : sheet.formulas = standing (·.name) (log.filterMap move?)
  order : ∀ order, sheet.order = some order ↔ StandsBuilt order log
  sorted : ∀ order, sheet.order = some order → sheet.graph.order = .ok order

theorem recorded_empty : empty.Recorded [] where
  sound := sound_empty
  formulas := rfl
  order _ := ⟨nofun, fun built => absurd built not_standsBuilt_nil⟩
  sorted := nofun

theorem filterMap_concat_of_none (h : move? entry = none) :
    (log ++ [entry]).filterMap move? = log.filterMap move? := by
  rw [List.filterMap_append, List.filterMap_cons_none h, List.filterMap_nil, List.append_nil]

namespace Recorded

/-- A sheet whose formulas have changed has no order. -/
theorem moved {next : FormulaSheet} {move : Move Formula} {answer : Answer}
    (h : sheet.Recorded log) (sound : next.Sound) (unordered : next.order = none)
    (moves : move? (made, .ok answer) = some move)
    (formulas : next.formulas = sheet.formulas.filter (!move.ends ·.name) ++ move.brings) :
    next.Recorded (log ++ [(made, .ok answer)]) where
  sound := sound
  formulas := by
    rw [List.filterMap_append, List.filterMap_cons, moves, List.filterMap_nil, standing_concat,
      ← h.formulas, formulas]
  order order := by
    rw [unordered, standsBuilt_concat]
    refine iff_of_false nofun ?_
    rintro (⟨⟨⟩⟩ | ⟨_, ⟨⟩, _⟩)
    cases moves
  sorted order held := by
    rw [unordered] at held
    cases held

theorem built (h : sheet.Recorded log) (sorted : sheet.graph.order = .ok order) :
    Recorded { sheet with order := some order } (log ++ [(.build, .ok (.built order))]) where
  sound := ⟨h.sound.distinct, h.sound.valid⟩
  formulas := by rw [filterMap_concat_of_none rfl, h.formulas]
  order other := by
    rw [standsBuilt_concat]
    constructor
    · rintro ⟨⟩
      exact .inl rfl
    · rintro (⟨⟨⟩⟩ | ⟨unbuilt, _⟩)
      · rfl
      · exact absurd rfl unbuilt
  sorted _ held := Option.some.inj held ▸ sorted

theorem unbuilt (h : sheet.Recorded log) (fault : Fault) :
    Recorded { sheet with order := none } (log ++ [(.build, .error fault)]) where
  sound := ⟨h.sound.distinct, h.sound.valid⟩
  formulas := by rw [filterMap_concat_of_none rfl, h.formulas]
  order other := by simp [standsBuilt_concat]
  sorted := nofun

theorem refused (h : sheet.Recorded log) (change : made ≠ .build) (fault : Fault) :
    sheet.Recorded (log ++ [(made, .error fault)]) where
  sound := h.sound
  formulas := by rw [filterMap_concat_of_none rfl, h.formulas]
  order other := by simp [standsBuilt_concat, h.order, change, Except.isOk, Except.toBool]
  sorted := h.sorted

theorem perform (h : sheet.Recorded log) (made : Call) :
    (sheet.perform made).2.Recorded (log ++ [(made, (sheet.perform made).1)]) := by
  rcases sheet.perform_cases made with ⟨formula, next, added, same⟩ |
    ⟨formula, next, removed, same⟩ | ⟨order, rfl, sorted, same⟩ | ⟨fault, rfl, same⟩ |
    ⟨fault, change, same⟩ <;> rw [same]
  · have sound := h.sound.add added
    obtain ⟨_, _, rfl⟩ := add_eq_ok added
    exact h.moved sound rfl rfl (by simp [Move.ends, Move.brings])
  · have sound := h.sound.remove removed
    obtain rfl := remove_eq_ok removed
    exact h.moved sound rfl rfl (by simp [Move.ends, Move.brings, eq_comm])
  · exact h.built sorted
  · exact h.unbuilt fault
  · exact h.refused change fault

theorem foldl (h : sheet.Recorded log) (calls : List Call) :
    (calls.foldl (fun sheet made => (sheet.perform made).2) sheet).Recorded
      (log ++ sheet.record calls) := by
  induction calls generalizing sheet log with
  | nil => rwa [record, List.append_nil]
  | cons made rest ih =>
    rw [record, List.append_cons]
    exact ih (h.perform made)

end Recorded

theorem recorded_afterAll (calls : List Call) : (afterAll calls).Recorded (empty.record calls) :=
  recorded_empty.foldl calls

end Statline.FormulaSheet
