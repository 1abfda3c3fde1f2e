import Statline.Proofs.Formula.Failure
import Statline.Proofs.Resolver.Resolution
import Statline.Proofs.Resolver.Staging

namespace Statline.FormulaSheet

variable {sheet after : FormulaSheet} {name : String}

theorem formulas_of_addAll {formulas : List Formula} (h : sheet.addAll formulas = .ok after) :
    after.formulas = sheet.formulas ++ formulas := by
  induction formulas generalizing sheet with
  | nil => cases h; simp
  | cons first rest ih =>
    rw [addAll, List.foldlM_cons] at h
    obtain ⟨next, added, h⟩ := bind_eq_ok.mp h
    obtain ⟨_, _, rfl⟩ := add_eq_ok added
    rw [ih h, List.append_assoc, List.singleton_append]

theorem remove_of_mem (h : name ∈ sheet.names) :
    ∃ formula ∈ sheet.formulas, formula.name = name ∧
      sheet.remove name = .ok (formula, ⟨sheet.formulas.filter (·.name ≠ name), none⟩) := by
  have known : (sheet.formula? name).isSome := by
    rw [formula?, List.find?_isSome]
    simpa [names] using h
  obtain ⟨formula, found⟩ := Option.isSome_iff_exists.mp known
  obtain ⟨member, named⟩ := mem_of_formula? found
  exact ⟨formula, member, named, by simp [remove, found]⟩

/-- A part of the formulas has no dependency that the whole does not have. -/
theorem dependsOn_graph_mono (h : ∀ formula ∈ after.formulas, formula ∈ sheet.formulas)
    {dependent dependency : String} (edge : after.graph.DependsOn dependent dependency) :
    sheet.graph.DependsOn dependent dependency := by
  obtain ⟨formula, member, named, declared, registered⟩ := dependsOn_graph.mp edge
  obtain ⟨other, hm, same⟩ := List.mem_map.mp registered
  exact dependsOn_graph.mpr ⟨formula, h formula member, named, declared,
    List.mem_map.mpr ⟨other, h other hm, same⟩⟩

/-- Formulas can be taken away without closing a cycle. -/
theorem order_ok_of_subset (after : FormulaSheet)
    (h : ∀ formula ∈ after.formulas, formula ∈ sheet.formulas)
    {order : List String} (sorted : sheet.graph.order = .ok order) :
    ∃ part, after.graph.order = .ok part := by
  refine Graph.order_ok_iff.mpr ?_
  rintro ⟨name, cycle⟩
  refine Graph.order_ok_iff.mp ⟨order, sorted⟩ ⟨name, ?_⟩
  exact cycle.lift id fun _ _ edge => dependsOn_graph_mono h edge

end Statline.FormulaSheet

namespace Statline.Resolver

def Call.isChange : Call → Bool
  | .add _ | .addAll _ | .remove _ => true
  | _ => false

def accepts (resolver : Resolver) (made : Call) : Bool :=
  made.isChange && (resolver.outcome made).isOk

/-- How many of the calls, made one after another, are accepted changes of the formulas. -/
def acceptedChanges (resolver : Resolver) : List Call → Nat
  | [] => 0
  | made :: rest =>
    (if resolver.accepts made then 1 else 0) + acceptedChanges (resolver.call made) rest

variable {resolver next : Resolver} {name : String} {primary : PrimaryStats} {fault : Fault}

theorem resolveStat_of_error (h : (resolver.resolveStat name primary).1 = .error fault) :
    (resolver.resolveStat name primary).2 = resolver := by
  unfold resolveStat at h ⊢
  split at h
  next unknown => rw [if_pos unknown]
  next known =>
    rw [if_neg known]
    dsimp only at h ⊢
    split at h
    next => cases h
    next =>
      split at h
      next => cases h
      next => rfl

theorem resolveStatWith_of_error {context : Context} {moment : Moment}
    (h : (resolver.resolveStatWith context moment name primary).1 = .error fault) :
    (resolver.resolveStatWith context moment name primary).2 = resolver := by
  unfold resolveStatWith at h ⊢
  split at h
  next => exact resolveStat_of_error h
  next => rfl

/-- A call that is refused leaves no trace. -/
theorem call_of_outcome_error {made : Call} (h : resolver.outcome made = .error fault) :
    resolver.call made = resolver := by
  cases made with
  | add formula => exact getD_of_error (map_eq_error.mp h) resolver
  | addAll formulas => exact getD_of_error (map_eq_error.mp h) resolver
  | remove name => exact getD_of_error (map_eq_error.mpr (map_eq_error.mp h)) resolver
  | resolve _ _ => rfl
  | resolveStat name primary => exact resolveStat_of_error (map_eq_error.mp h)
  | resolveStatWith context moment name primary =>
    exact resolveStatWith_of_error (map_eq_error.mp h)
  | setBounds stat range => exact getD_of_error (map_eq_error.mp h) resolver
  | clearMemo => cases h
  | removeBounds stat => cases h

theorem version_of_adopt {staged : FormulaSheet} (h : resolver.adopt staged = .ok next) :
    next.version = resolver.version + 1 := by
  obtain ⟨_, _, rfl⟩ := adopt_eq_ok h
  rfl

theorem version_of_keeps (h : Keeps resolver next) : next.version = resolver.version := by
  cases h with
  | bounds | forget | remember => rfl

theorem version_getD {changed : Except Fault Resolver}
    (h : ∀ next, changed = .ok next → next.version = resolver.version + 1) :
    (changed.toOption.getD resolver).version =
      resolver.version + if changed.isOk then 1 else 0 := by
  cases changed with
  | error fault => rfl
  | ok next => exact h next rfl

theorem version_of_addAll {formulas : List Formula} (h : resolver.addAll formulas = .ok next) :
    next.version = resolver.version + 1 := by
  obtain ⟨_, _, adopted⟩ := addAll_eq_ok h
  exact version_of_adopt adopted

theorem version_of_remove (h : (resolver.remove name).map (·.2) = .ok next) :
    next.version = resolver.version + 1 := by
  obtain ⟨_, _, _, adopted⟩ := remove_eq_ok h
  exact version_of_adopt adopted

/-- A call that is no change keeps the formulas and so their version. -/
theorem version_of_not_isChange {made : Call} (h : made.isChange = false) :
    (resolver.call made).version = resolver.version := by
  cases made with
  | add | addAll | remove => cases h
  | resolve _ _ => rfl
  | resolveStat name primary => exact version_of_keeps (keeps_resolveStat resolver name primary)
  | resolveStatWith context moment name primary =>
    simp only [call, resolveStatWith]
    split
    next => exact version_of_keeps (keeps_resolveStat resolver name primary)
    next => rfl
  | clearMemo => rfl
  | setBounds stat range =>
    rcases getD_cases resolver (resolver.setBounds stat range) with accepted | refused
    · obtain ⟨_, same⟩ := setBounds_eq_ok accepted
      simp only [call, same]
    · simp only [call, refused]
  | removeBounds stat => rfl

/-- A change that is accepted raises the version by one, and nothing else moves it. -/
theorem version_call (resolver : Resolver) (made : Call) :
    (resolver.call made).version =
      resolver.version + if resolver.accepts made then 1 else 0 := by
  cases change : made.isChange with
  | false => simpa [accepts, change] using version_of_not_isChange change
  | true =>
    simp only [accepts, change, Bool.true_and]
    cases made with
    | add formula =>
      rw [outcome, isOk_map]
      exact version_getD fun next added => version_of_addAll added
    | addAll formulas =>
      rw [outcome, isOk_map]
      exact version_getD fun next added => version_of_addAll added
    | remove name =>
      rw [outcome, isOk_map, ← isOk_map _ Prod.snd]
      exact version_getD fun next removed => version_of_remove removed
    | _ => cases change

theorem version_foldl_call (calls : List Call) (resolver : Resolver) :
    (calls.foldl call resolver).version = resolver.version + resolver.acceptedChanges calls := by
  induction calls generalizing resolver with
  | nil => rfl
  | cons made rest ih =>
    rw [List.foldl_cons, ih, version_call, acceptedChanges, Nat.add_assoc]

theorem adopt_of_order_ok (resolver : Resolver) {staged : FormulaSheet} {order : List String}
    (h : staged.graph.order = .ok order) : ∃ next, resolver.adopt staged = .ok next := by
  simp only [adopt, FormulaSheet.build, h]
  exact ⟨_, rfl⟩

/-- A registered formula can always be removed, and only it goes. -/
theorem Sound.remove_ok (sound : resolver.Sound) (registered : name ∈ resolver.sheet.names) :
    ∃ formula ∈ resolver.sheet.formulas, formula.name = name ∧
      ∃ next, resolver.remove name = .ok (formula, next) ∧
        next.sheet.formulas = resolver.sheet.formulas.filter (·.name ≠ name) := by
  obtain ⟨formula, member, named, taken⟩ := FormulaSheet.remove_of_mem registered
  obtain ⟨order, sorted⟩ := FormulaSheet.order_ok_of_subset
    ⟨resolver.sheet.formulas.filter (·.name ≠ name), none⟩
    (fun _ kept => (List.mem_filter.mp kept).1) sound.order
  obtain ⟨next, adopted⟩ := adopt_of_order_ok resolver sorted
  refine ⟨formula, member, named, next, ?_, ?_⟩
  · exact bind_eq_ok.mpr ⟨_, taken, bind_eq_ok.mpr ⟨next, adopted, rfl⟩⟩
  · obtain ⟨_, _, rfl⟩ := adopt_eq_ok adopted
    rfl

theorem formulas_of_addAll {formulas : List Formula} (h : resolver.addAll formulas = .ok next) :
    next.sheet.formulas = resolver.sheet.formulas ++ formulas := by
  obtain ⟨staged, added, adopted⟩ := addAll_eq_ok h
  obtain ⟨_, _, rfl⟩ := adopt_eq_ok adopted
  have all : staged.formulas = resolver.sheet.formulas ++ formulas :=
    FormulaSheet.formulas_of_addAll added
  exact all

/-- Whatever calls came before: a call that is refused leaves the resolver as it was, and one that
adds formulas and is accepted adds all of them. The formulas are valid and their names differ, the
order lists each of them once and after all that it declares, the version counts the accepted
changes, what is registered can be removed, and a resolution fails for nothing but a stat that is
neither registered nor supplied. A shared resolver that changes a copy of its formulas step by step
and then puts it in their place ends every call alike, and one that it refuses leaves it as it
was. -/
theorem table_after_calls (calls : List Call) :
    (∀ made fault, (after calls).outcome made = .error fault →
      (after calls).call made = after calls) ∧
    (∀ formulas next, (after calls).addAll formulas = .ok next →
      next.sheet.formulas = (after calls).sheet.formulas ++ formulas) ∧
    (after calls).sheet.names.Nodup ∧
    (∀ formula ∈ (after calls).sheet.formulas, formula.validate = .ok ()) ∧
    (after calls).order.Perm (after calls).sheet.names ∧
    (∀ formula ∈ (after calls).sheet.formulas, ∀ dep ∈ formula.deps,
      dep ∈ (after calls).sheet.names →
      (after calls).order.idxOf dep < (after calls).order.idxOf formula.name) ∧
    (after calls).version = empty.acceptedChanges calls ∧
    (∀ name ∈ (after calls).sheet.names, ∃ formula ∈ (after calls).sheet.formulas,
      formula.name = name ∧ ∃ next, (after calls).remove name = .ok (formula, next) ∧
        next.sheet.formulas = (after calls).sheet.formulas.filter (·.name ≠ name)) ∧
    (∀ primary previous fault, (after calls).resolve primary previous = .error fault →
      ∃ stat, fault = .missingDependency stat ∧ (after calls).sheet.Lacks primary stat) ∧
    (SharedResolver.after calls).plain = after calls ∧
    ∀ made, let ended := (SharedResolver.inPlace made).run (SharedResolver.after calls)
      ended.1 = (after calls).outcome made ∧ ended.2.plain = (after calls).call made ∧
        ∀ fault, ended.1 = .error fault → ended.2 = SharedResolver.after calls := by
  have sound := sound_after calls
  refine ⟨fun made fault => call_of_outcome_error, fun formulas next => formulas_of_addAll,
    sound.sheet.distinct, sound.sheet.valid, sound.order_perm, ?_, ?_, ?_, ?_, ?_, fun made => ?_⟩
  · exact fun formula member dep => FormulaSheet.idxOf_lt_idxOf sound.order member
  · exact (version_foldl_call calls empty).trans (Nat.zero_add _)
  · exact fun name registered => sound.remove_ok registered
  · exact fun primary previous fault failed => FormulaSheet.evaluate_eq_error sound.ready failed
  · rw [shared_after, plain_shared]
  · rw [shared_after, run_inPlace sound.sheet.distinct]
    exact ⟨rfl, plain_shared _,
      fun fault refused => congrArg shared (call_of_outcome_error refused)⟩

end Statline.Resolver
