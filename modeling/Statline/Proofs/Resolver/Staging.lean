import Statline.Proofs.Formula.Positions
import Statline.Proofs.Resolver.History

namespace Statline

/-- A resolver that is shared, with its formulas by position. -/
structure SharedResolver where
  sheet : IndexedSheet
  version : Nat
  memo : Std.HashMap MemoKey Float
  bounds : Table Caps

namespace IndexedSheet

def addAll (formulas : List Formula) : InPlace IndexedSheet Unit :=
  formulas.forM fun formula => discard (add formula)

/-- A change of the formulas, after which their order is built. -/
def thenBuild {α : Type} (change : InPlace IndexedSheet α) : InPlace IndexedSheet α := do
  let answer ← change
  discard build
  return answer

end IndexedSheet

namespace SharedResolver

open Resolver (Call)

def empty : SharedResolver := ⟨IndexedSheet.empty, 0, {}, Table.empty⟩

/-- The resolver without the positions, by which formulas are found as they are by name. -/
def plain (resolver : SharedResolver) : Resolver :=
  ⟨⟨resolver.sheet.formulas, resolver.sheet.order⟩, resolver.version, resolver.memo,
    resolver.bounds⟩

/-- The copy takes the place of the formulas, unless something has failed. -/
def commit {α : Type} (ended : Except Fault α) (copy : IndexedSheet) :
    InPlace SharedResolver α := do
  let answer ← ofExcept ended
  modify ({ · with sheet := copy })
  modify ({ · with memo := {} })
  modify fun resolver => { resolver with version := resolver.version + 1 }
  return answer

/-- The change is made on a copy. What it has written by the time it fails stands in the copy. -/
def update {α : Type} (change : InPlace IndexedSheet α) : InPlace SharedResolver α := do
  let (ended, copy) := (IndexedSheet.thenBuild change).run (← get).sheet
  commit ended copy

def addAll (formulas : List Formula) : InPlace SharedResolver Unit :=
  update (IndexedSheet.addAll formulas)

def remove (name : String) : InPlace SharedResolver FormulaSheet.Answer :=
  update (IndexedSheet.remove name)

/-- A full memo is emptied before it takes another value. -/
def remember (key : MemoKey) (value : Float) : InPlace SharedResolver Unit := do
  modify fun resolver =>
    if Resolver.memoLimit ≤ resolver.memo.size then { resolver with memo := {} } else resolver
  modify fun resolver => { resolver with memo := resolver.memo.insert key value }

def resolveStat (name : String) (primary : PrimaryStats) : InPlace SharedResolver Float := do
  let resolver ← get
  let key := resolver.plain.memoKey name primary
  if !resolver.sheet.contains name then throw (.unknownFormula name)
  else
    match resolver.memo[key]? with
    | some value => return value
    | none => do
      let value ← ofExcept (resolver.plain.compute name primary)
      remember key value
      return value

def setBounds (stat : String) (range : Caps) : InPlace SharedResolver Unit := do
  if Text.isBlank stat then throw .emptyDimension
  let _ ← ofExcept (Caps.checked stat range.min range.max)
  modify fun resolver => { resolver with bounds := resolver.bounds.insert stat range }

def inPlace : Call → InPlace SharedResolver Unit
  | .add formula => addAll [formula]
  | .addAll formulas => addAll formulas
  | .remove name => discard (remove name)
  | .resolve primary previous => do
    discard (ofExcept ((← get).plain.resolve primary previous))
  | .resolveStat name primary => discard (resolveStat name primary)
  | .resolveStatWith context moment name primary => do
    ofExcept (context.check moment)
    discard (resolveStat name primary)
  | .clearMemo => modify ({ · with memo := {} })
  | .setBounds stat range => setBounds stat range
  | .removeBounds stat =>
    modify fun resolver => { resolver with bounds := resolver.bounds.erase stat }

def after (calls : List Call) : SharedResolver :=
  calls.foldl (fun resolver made => ((inPlace made).run resolver).2) empty

end SharedResolver

namespace FormulaSheet

variable {α : Type} {sheet next : FormulaSheet} {formulas : List Formula} {fault : Fault}

theorem run_discard_add (sheet : FormulaSheet) (formula : Formula) :
    (discard (IndexedSheet.add formula)).run sheet.indexed =
      settle sheet.indexed ((sheet.add formula).map indexed) := by
  rw [run_discard, run_add, perform]
  cases sheet.add formula <;> rfl

theorem run_addAll_of_ok (h : sheet.addAll formulas = .ok next) :
    (IndexedSheet.addAll formulas).run sheet.indexed = (.ok (), next.indexed) := by
  induction formulas generalizing sheet with
  | nil => cases h; rfl
  | cons formula rest ih =>
    obtain ⟨middle, added, later⟩ := bind_eq_ok.mp h
    have first := run_discard_add sheet formula
    rw [added] at first
    have whole : IndexedSheet.addAll (formula :: rest) =
        discard (IndexedSheet.add formula) >>= fun _ => IndexedSheet.addAll rest := rfl
    rw [whole, run_bind, first]
    exact ih later

/-- The formulas before the one that is refused have been written by then. -/
theorem run_addAll_of_error (h : sheet.addAll formulas = .error fault) :
    ((IndexedSheet.addAll formulas).run sheet.indexed).1 = .error fault := by
  induction formulas generalizing sheet with
  | nil => cases h
  | cons formula rest ih =>
    have first := run_discard_add sheet formula
    have whole : IndexedSheet.addAll (formula :: rest) =
        discard (IndexedSheet.add formula) >>= fun _ => IndexedSheet.addAll rest := rfl
    rw [whole, run_bind, first]
    rcases bind_eq_error.mp h with refused | ⟨middle, added, later⟩
    · rw [refused]
      rfl
    · rw [added]
      exact ih later

/-- What a change of the sheet comes to when it is made on a copy that has the positions. -/
structure Stages (change : InPlace IndexedSheet α) (sheet : FormulaSheet)
    (staged : Except Fault (α × FormulaSheet)) : Prop where
  accepted : ∀ answer next, staged = .ok (answer, next) →
    change.run sheet.indexed = (.ok answer, next.indexed)
  refused : ∀ fault, staged = .error fault → (change.run sheet.indexed).1 = .error fault

theorem stages_addAll (sheet : FormulaSheet) (formulas : List Formula) :
    Stages (IndexedSheet.addAll formulas) sheet ((sheet.addAll formulas).map ((), ·)) where
  accepted answer next staged := by
    obtain ⟨_, added, ⟨⟩⟩ := map_eq_ok.mp staged
    exact run_addAll_of_ok added
  refused fault staged := run_addAll_of_error (map_eq_error.mp staged)

theorem stages_remove (distinct : sheet.names.Nodup) (name : String) :
    Stages (IndexedSheet.remove name) sheet
      ((sheet.remove name).map fun (formula, next) => (.removed formula, next)) where
  accepted answer next staged := by
    obtain ⟨⟨_, _⟩, removed, ⟨⟩⟩ := map_eq_ok.mp staged
    rw [run_remove distinct, perform, removed]
  refused fault staged := by
    rw [run_remove distinct, perform, map_eq_error.mp staged]

end FormulaSheet

namespace Resolver

variable {α : Type} {resolver : Resolver} {change : InPlace IndexedSheet α}
  {staged : Except Fault (α × FormulaSheet)}

/-- The resolver with the positions of its formulas. -/
def shared (resolver : Resolver) : SharedResolver :=
  ⟨resolver.sheet.indexed, resolver.version, resolver.memo, resolver.bounds⟩

theorem plain_shared (resolver : Resolver) : resolver.shared.plain = resolver := rfl

/-- A change on a copy is put into force, or nothing of it shows. -/
theorem run_update (h : FormulaSheet.Stages change resolver.sheet staged) :
    (SharedResolver.update change).run resolver.shared =
      settleWith resolver.shared (staged >>= fun (answer, next) =>
        (resolver.adopt next).map fun adopted => (answer, adopted.shared)) := by
  have unfolded : (SharedResolver.update change).run resolver.shared =
      let outcome := (IndexedSheet.thenBuild change).run resolver.sheet.indexed
      (SharedResolver.commit outcome.1 outcome.2).run resolver.shared := rfl
  rw [unfolded, IndexedSheet.thenBuild, run_bind]
  cases staged with
  | error fault =>
    have failed := h.refused fault rfl
    rcases ended : change.run resolver.sheet.indexed with ⟨_ | _, _⟩ <;> rw [ended] at failed <;>
      cases failed
    rfl
  | ok pair =>
    obtain ⟨answer, next⟩ := pair
    rw [h.accepted answer next rfl]
    dsimp only
    rw [run_bind, run_discard, FormulaSheet.run_build, FormulaSheet.perform]
    have chained : (.ok (answer, next) >>= fun (answer, next) =>
        (resolver.adopt next).map fun adopted => (answer, adopted.shared)) =
          (resolver.adopt next).map fun adopted => (answer, adopted.shared) := rfl
    rw [chained, adopt]
    rcases next.build with ⟨_ | order, built⟩ <;> rfl

theorem run_addAll (resolver : Resolver) (formulas : List Formula) :
    (SharedResolver.addAll formulas).run resolver.shared =
      settle resolver.shared ((resolver.addAll formulas).map shared) := by
  rw [SharedResolver.addAll, run_update (FormulaSheet.stages_addAll resolver.sheet formulas),
    addAll]
  cases resolver.sheet.addAll formulas with
  | error fault => rfl
  | ok staged =>
    change settleWith _ ((resolver.adopt staged).map _) = settle _ ((resolver.adopt staged).map _)
    cases resolver.adopt staged <;> rfl

theorem run_remove (distinct : resolver.sheet.names.Nodup) (name : String) :
    (SharedResolver.remove name).run resolver.shared =
      settleWith resolver.shared
        ((resolver.remove name).map fun (formula, next) => (.removed formula, next.shared)) := by
  rw [SharedResolver.remove, run_update (FormulaSheet.stages_remove distinct name), remove]
  cases resolver.sheet.remove name with
  | error fault => rfl
  | ok staged =>
    obtain ⟨formula, staged⟩ := staged
    change settleWith _ ((resolver.adopt staged).map _) =
      settleWith _ ((resolver.adopt staged >>= fun next => pure (formula, next)).map _)
    cases resolver.adopt staged <;> rfl

theorem run_remember (resolver : Resolver) (key : MemoKey) (value : Float) :
    (SharedResolver.remember key value).run resolver.shared =
      (.ok (), (resolver.remember key value).shared) := by
  have stepwise : (SharedResolver.remember key value).run resolver.shared =
      let kept := if memoLimit ≤ resolver.memo.size then { resolver.shared with memo := {} }
        else resolver.shared
      (.ok (), { kept with memo := kept.memo.insert key value }) := rfl
  rw [stepwise, remember]
  split <;> rfl

theorem run_resolveStat (resolver : Resolver) (name : String) (primary : PrimaryStats) :
    (SharedResolver.resolveStat name primary).run resolver.shared =
      ((resolver.resolveStat name primary).1, (resolver.resolveStat name primary).2.shared) := by
  have stepwise : (SharedResolver.resolveStat name primary).run resolver.shared =
      (if !resolver.sheet.indexed.contains name then throw (.unknownFormula name)
      else
        match resolver.memo[resolver.memoKey name primary]? with
        | some value => pure value
        | none => ofExcept (resolver.compute name primary) >>= fun value =>
          SharedResolver.remember (resolver.memoKey name primary) value >>= fun _ => pure value :
            InPlace SharedResolver Float).run resolver.shared := rfl
  rw [stepwise, FormulaSheet.contains_indexed, resolveStat]
  split
  next => rfl
  next =>
    dsimp only
    cases resolver.memo[resolver.memoKey name primary]? with
    | some value => rfl
    | none =>
      cases resolver.compute name primary with
      | error fault => rfl
      | ok value =>
        change (SharedResolver.remember (resolver.memoKey name primary) value >>= fun _ =>
          pure value : InPlace SharedResolver Float).run resolver.shared = _
        rw [run_bind, run_remember]
        rfl

theorem run_setBounds (resolver : Resolver) (stat : String) (range : Caps) :
    (SharedResolver.setBounds stat range).run resolver.shared =
      settle resolver.shared ((resolver.setBounds stat range).map shared) := by
  unfold SharedResolver.setBounds setBounds
  split
  next => rfl
  next => cases Caps.checked stat range.min range.max <;> rfl

/-- A call ends as it should and leaves what it should, though it writes step by step. -/
theorem run_inPlace (distinct : resolver.sheet.names.Nodup) (made : Call) :
    (SharedResolver.inPlace made).run resolver.shared =
      (resolver.outcome made, (resolver.call made).shared) := by
  cases made with
  | add formula => exact (run_addAll resolver [formula]).trans (settle_map resolver _ shared)
  | addAll formulas => exact (run_addAll resolver formulas).trans (settle_map resolver _ shared)
  | remove name =>
    rw [SharedResolver.inPlace, run_discard, run_remove distinct, outcome, call]
    cases resolver.remove name <;> rfl
  | resolve primary previous =>
    change (discard (ofExcept (resolver.resolve primary previous)) :
      InPlace SharedResolver Unit).run resolver.shared = _
    rw [run_discard, outcome, call]
    cases resolver.resolve primary previous <;> rfl
  | resolveStat name primary =>
    rw [SharedResolver.inPlace, run_discard, run_resolveStat]
    rfl
  | resolveStatWith context moment name primary =>
    rw [SharedResolver.inPlace, outcome, call, resolveStatWith]
    cases context.check moment with
    | error fault => rfl
    | ok _ =>
      change (discard (SharedResolver.resolveStat name primary)).run resolver.shared = _
      rw [run_discard, run_resolveStat]
  | clearMemo => rfl
  | setBounds stat range =>
    exact (run_setBounds resolver stat range).trans (settle_map resolver _ shared)
  | removeBounds stat => rfl

/-- By induction on the calls, from any resolver whose formulas have different names. -/
theorem shared_after (calls : List Call) : SharedResolver.after calls = (after calls).shared := by
  suffices general : ∀ resolver : Resolver, resolver.Sound →
      calls.foldl (fun shared made => ((SharedResolver.inPlace made).run shared).2)
        resolver.shared = (calls.foldl call resolver).shared from
    general empty sound_empty
  induction calls with
  | nil => exact fun _ _ => rfl
  | cons made rest ih =>
    intro resolver sound
    rw [List.foldl_cons, List.foldl_cons, run_inPlace sound.sheet.distinct]
    exact ih _ (sound.call made)

end Resolver

end Statline
