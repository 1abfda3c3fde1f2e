import Mathlib.Data.List.Nodup
import Statline.FormulaSheet
import Statline.Proofs.Except

namespace Statline

def Step.reads (step : Step) : Option String :=
  step.term?.bind Term.reads

def Formula.reads (formula : Formula) : List String :=
  formula.steps.filterMap Step.reads

def Term.value (reading : String → Float) : Term → Float
  | constant value => value
  | scaled stat factor => reading stat * factor

def Step.act (reading : String → Float) (value : Float) : Step → Float
  | flat term => value + term.value reading
  | mult term => value * term.value reading
  | clamp min max => Double.larger (Double.smaller value max) min

/-- What the steps make of 0 when every stat has a reading. -/
def Formula.run (formula : Formula) (reading : String → Float) : Float :=
  formula.steps.foldl (Step.act reading) 0.0

/-- The value of a registered name: that of its formula, in which registered names stand for their
own values and all others for the primary stats. -/
inductive Denotes (formulas : List Formula) (primary : PrimaryStats) : String → Float → Prop
  | formula {formula : Formula} {reading : String → Float} :
      formula ∈ formulas →
      (∀ stat ∈ formula.reads, stat ∈ formulas.map (·.name) →
        Denotes formulas primary stat (reading stat)) →
      (∀ stat ∈ formula.reads, stat ∉ formulas.map (·.name) →
        primary.value? stat = some (reading stat)) →
      Denotes formulas primary formula.name (formula.run reading)

variable {lookup : String → Except Fault Float} {reading : String → Float}

theorem Step.apply_reading (reading : String → Float) (step : Step) (value : Float) :
    step.apply (fun stat => .ok (reading stat)) value = .ok (step.act reading value) := by
  cases step with
  | flat term | mult term => cases term <;> rfl
  | clamp min max => rfl

theorem Step.exists_of_apply_ok {step : Step} {value after : Float}
    (h : step.apply lookup value = .ok after) {stat : String} (hr : step.reads = some stat) :
    ∃ read, lookup stat = .ok read := by
  cases step with
  | flat term | mult term =>
    cases term with
    | constant _ => cases hr
    | scaled other factor =>
      cases Option.some.inj hr
      obtain ⟨operand, ho, _⟩ := bind_eq_ok.mp h
      obtain ⟨value, read, _⟩ := bind_eq_ok.mp ho
      exact ⟨value, read⟩
  | clamp min max => cases hr

theorem Step.apply_congr {other : String → Except Fault Float} {step : Step} (value : Float)
    (h : ∀ stat, step.reads = some stat → lookup stat = other stat) :
    step.apply lookup value = step.apply other value := by
  cases step with
  | flat term | mult term =>
    cases term with
    | constant _ => rfl
    | scaled stat factor => simp only [Step.apply, Term.evaluate, h stat rfl]
  | clamp min max => rfl

theorem Step.act_congr {other : String → Float} {step : Step} (value : Float)
    (h : ∀ stat, step.reads = some stat → reading stat = other stat) :
    step.act reading value = step.act other value := by
  cases step with
  | flat term | mult term =>
    cases term with
    | constant _ => rfl
    | scaled stat factor => simp only [Step.act, Term.value, h stat rfl]
  | clamp min max => rfl

namespace Formula

variable {formula : Formula}

theorem mem_reads_of_mem {step : Step} (hs : step ∈ formula.steps) {stat : String}
    (h : step.reads = some stat) : stat ∈ formula.reads :=
  List.mem_filterMap.mpr ⟨step, hs, h⟩

theorem exists_of_evaluate_ok {value : Float} (h : formula.evaluate lookup = .ok value) :
    ∀ stat ∈ formula.reads, ∃ read, lookup stat = .ok read := by
  intro stat member
  obtain ⟨step, hs, hr⟩ := List.mem_filterMap.mp member
  rw [evaluate] at h
  generalize formula.steps = steps at h hs
  generalize (0.0 : Float) = start at h
  induction steps generalizing start with
  | nil => simp at hs
  | cons first rest ih =>
    rw [List.foldlM_cons] at h
    obtain ⟨next, applied, h⟩ := bind_eq_ok.mp h
    rcases List.mem_cons.mp hs with rfl | hs
    · exact Step.exists_of_apply_ok applied hr
    · exact ih hs next h

theorem evaluate_congr {other : String → Except Fault Float}
    (h : ∀ stat ∈ formula.reads, lookup stat = other stat) :
    formula.evaluate lookup = formula.evaluate other := by
  suffices general : ∀ steps : List Step, (∀ step ∈ steps, step ∈ formula.steps) → ∀ value,
      steps.foldlM (Step.apply lookup) value = steps.foldlM (Step.apply other) value from
    general formula.steps (fun _ member => member) 0.0
  intro steps
  induction steps with
  | nil => intros; rfl
  | cons step rest ih =>
    intro within value
    have here : step.apply lookup value = step.apply other value :=
      Step.apply_congr value fun stat hr =>
        h stat (mem_reads_of_mem (within step List.mem_cons_self) hr)
    rw [List.foldlM_cons, List.foldlM_cons, here]
    congr 1
    funext next
    exact ih (fun other member => within other (List.mem_cons_of_mem step member)) next

theorem evaluate_ok (h : ∀ stat ∈ formula.reads, lookup stat = .ok (reading stat)) :
    formula.evaluate lookup = .ok (formula.run reading) := by
  rw [evaluate_congr h, evaluate, run]
  generalize (0.0 : Float) = value
  induction formula.steps generalizing value with
  | nil => rfl
  | cons step rest ih =>
    rw [List.foldlM_cons, Step.apply_reading]
    exact ih (step.act reading value)

theorem run_congr {other : String → Float} (h : ∀ stat ∈ formula.reads, reading stat = other stat) :
    formula.run reading = formula.run other :=
  List.foldl_ext _ _ _ fun value _ hs =>
    Step.act_congr value fun stat hr => h stat (mem_reads_of_mem hs hr)

end Formula

/-- Distinct names leave no choice of a value. -/
theorem Denotes.unique {formulas : List Formula} {primary : PrimaryStats} {name : String}
    {value other : Float} (distinct : (formulas.map (·.name)).Nodup)
    (h : Denotes formulas primary name value) (h' : Denotes formulas primary name other) :
    value = other := by
  induction h generalizing other with
  | @formula formula reading member inner outer ih =>
    generalize hn : formula.name = name at h'
    cases h' with
    | @formula second read hm inner' outer' =>
      obtain rfl : formula = second := List.inj_on_of_nodup_map distinct member hm hn
      refine Formula.run_congr fun stat hs => ?_
      by_cases registered : stat ∈ formulas.map (·.name)
      · exact ih stat hs registered (inner' stat hs registered)
      · exact Option.some.inj ((outer stat hs registered).symm.trans (outer' stat hs registered))

end Statline
