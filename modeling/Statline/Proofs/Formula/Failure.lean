import Statline.Proofs.Formula.Evaluation

namespace Statline

variable {lookup : String → Except Fault Float} {fault : Fault}

theorem Term.exists_of_evaluate_error {term : Term} (h : term.evaluate lookup = .error fault) :
    ∃ stat, term.reads = some stat ∧ lookup stat = .error fault := by
  cases term with
  | constant value => cases h
  | scaled stat factor =>
    rcases bind_eq_error.mp h with failed | ⟨_, _, ⟨⟩⟩
    exact ⟨stat, rfl, failed⟩

theorem Step.exists_of_apply_error {step : Step} {value : Float}
    (h : step.apply lookup value = .error fault) :
    ∃ stat, step.reads = some stat ∧ lookup stat = .error fault := by
  cases step with
  | flat term | mult term =>
    rcases bind_eq_error.mp h with failed | ⟨_, _, ⟨⟩⟩
    exact Term.exists_of_evaluate_error failed
  | clamp min max => cases h

/-- A formula fails for nothing but a stat that cannot be read. -/
theorem Formula.exists_of_evaluate_error {formula : Formula}
    (h : formula.evaluate lookup = .error fault) :
    ∃ stat ∈ formula.reads, lookup stat = .error fault := by
  suffices general : ∀ steps : List Step, (∀ step ∈ steps, step ∈ formula.steps) → ∀ value,
      steps.foldlM (Step.apply lookup) value = .error fault →
      ∃ stat ∈ formula.reads, lookup stat = .error fault from
    general formula.steps (fun _ member => member) 0.0 h
  intro steps
  induction steps with
  | nil => rintro _ value ⟨⟩
  | cons step rest ih =>
    intro within value failed
    rw [List.foldlM_cons] at failed
    rcases bind_eq_error.mp failed with first | ⟨next, _, later⟩
    · obtain ⟨stat, read, unreadable⟩ := Step.exists_of_apply_error first
      exact ⟨stat, mem_reads_of_mem (within step List.mem_cons_self) read, unreadable⟩
    · exact ih (fun other member => within other (List.mem_cons_of_mem step member)) next later

namespace FormulaSheet

variable {sheet : FormulaSheet} {primary : PrimaryStats} {computed : DerivedStats}
  {formula : Formula} {name stat : String} {done order : List String}

theorem lookup_eq_error (h : sheet.lookup primary computed stat = .error fault) :
    fault = .missingDependency stat ∧
      (stat ∈ sheet.names → computed.values.get? stat = none) ∧
      (stat ∉ sheet.names → primary.value? stat = none) := by
  unfold lookup at h
  split at h
  next => cases h
  next absent =>
    cases h
    refine ⟨rfl, fun registered => ?_, fun unregistered => ?_⟩
    · rwa [if_pos (contains_eq_true.mpr registered)] at absent
    · rwa [if_neg (mt contains_eq_true.mp unregistered)] at absent

/-- A stat that some formula reads is neither registered nor among the primary stats. -/
def Lacks (sheet : FormulaSheet) (primary : PrimaryStats) (stat : String) : Prop :=
  stat ∉ sheet.names ∧ primary.contains stat = false ∧
    ∃ formula ∈ sheet.formulas, stat ∈ formula.reads

theorem evaluateNext_eq_error (found : sheet.formula? name = some formula)
    (reads : ∀ stat ∈ formula.reads, stat ∈ sheet.names → stat ∈ done)
    (filed : ∀ name ∈ done, (computed.values.get? name).isSome)
    (h : sheet.evaluateNext primary computed name = .error fault) :
    ∃ stat, fault = .missingDependency stat ∧ sheet.Lacks primary stat := by
  rw [evaluateNext_eq found] at h
  obtain ⟨stat, read, unreadable⟩ := Formula.exists_of_evaluate_error (map_eq_error.mp h)
  obtain ⟨rfl, inside, outside⟩ := lookup_eq_error unreadable
  have unregistered : stat ∉ sheet.names := by
    intro registered
    have present := filed stat (reads stat read registered)
    rw [inside registered] at present
    cases present
  refine ⟨stat, rfl, unregistered, ?_, formula, (mem_of_formula? found).1, read⟩
  rw [← PrimaryStats.value?_isSome, outside unregistered]
  rfl

/-- Along a ready order an evaluation fails for nothing but a stat that is not supplied. -/
theorem foldlM_evaluateNext_error (ready : sheet.Ready done order)
    (filed : ∀ name ∈ done, (computed.values.get? name).isSome)
    (h : order.foldlM (sheet.evaluateNext primary) computed = .error fault) :
    ∃ stat, fault = .missingDependency stat ∧ sheet.Lacks primary stat := by
  induction order generalizing done computed with
  | nil => cases h
  | cons name rest ih =>
    obtain ⟨⟨formula, found, reads⟩, ready⟩ := ready
    rw [List.foldlM_cons] at h
    rcases bind_eq_error.mp h with failed | ⟨after, next, later⟩
    · exact evaluateNext_eq_error found reads filed failed
    · refine ih ready ?_ later
      obtain ⟨_, value, _, _, rfl⟩ := evaluateNext_eq_ok next
      intro other member
      rw [DerivedStats.get?_set]
      split
      next => rfl
      next apart => exact filed other (by simpa [apart] using member)

theorem evaluate_eq_error (ready : sheet.Ready [] order) {previous : Option DerivedStats}
    (h : sheet.evaluate order primary previous = .error fault) :
    ∃ stat, fault = .missingDependency stat ∧ sheet.Lacks primary stat := by
  rcases bind_eq_error.mp h with failed | ⟨_, _, ⟨⟩⟩
  exact foldlM_evaluateNext_error ready (by simp) failed

end FormulaSheet

end Statline
