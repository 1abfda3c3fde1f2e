import Statline.Document.Text
import Statline.Proofs.Document.Basic
import Statline.Proofs.Formula.Sheet
import Statline.Proofs.Roster.Accepted
import Statline.Proofs.Rule.History

namespace Statline.Document

theorem textual_writeCaps {range : Caps} (h : range.isValid = true) :
    (writeCaps range).Textual := by
  have bounds := Caps.bounds_of_isValid h
  simp [writeCaps, bounds.min, bounds.max]

theorem textual_writeContribution {c : Contribution} (h : c.validate = .ok ()) :
    (writeContribution c).Textual := by
  simp [writeContribution, Contribution.isFinite_of_validate h]

theorem textual_writeCapContribution {c : CapContribution} (h : c.validate = .ok ()) :
    (writeCapContribution c).Textual := by
  obtain ⟨system, dimension, mode, value, priority, scope, realm, tags⟩ := c
  have finite := CapContribution.isFinite_of_validate h
  cases realm <;> cases tags <;> simp_all [writeCapContribution]

theorem textual_writeOutput {output : Output} (h : output.validate = .ok ()) :
    (writeOutput output).Textual := by
  obtain ⟨primary, derived, caps⟩ := Output.validate_eq_ok.mp h
  have primary := fun c member => textual_writeContribution (primary c member)
  have derived := fun c member => textual_writeContribution (derived c member)
  have caps := fun c member => textual_writeCapContribution (caps c member)
  simpa [writeOutput, writeOrigin] using ⟨primary, derived, caps⟩

theorem textual_writeTerm {term : Term} (h : term.isFinite = true) : (writeTerm term).Textual := by
  cases term <;> simpa [writeTerm, Term.isFinite] using h

theorem textual_writeStep {deps : List String} {index : Nat} {step : Step}
    (h : step.flaw deps index = none) : (writeStep step).Textual := by
  cases step with
  | flat term | mult term =>
    have finite : term.isFinite = true := by
      simp only [Step.flaw] at h
      split at h
      next => cases h
      next finite => simpa using finite
    simpa [writeStep] using textual_writeTerm finite
  | clamp min max =>
    have valid : (Caps.mk min max).isValid = true := by
      simp only [Step.flaw] at h
      split at h
      next valid => exact valid
      next => cases h
    simpa [writeStep, writeCaps] using textual_writeCaps valid

theorem textual_writeFormula {formula : Formula} (h : formula.validate = .ok ()) :
    (writeFormula formula).Textual := by
  have steps : ∀ step ∈ formula.steps, (writeStep step).Textual := by
    intro step member
    obtain ⟨_, flawless⟩ := Formula.flaw_of_validate h step member
    exact textual_writeStep flawless
  simpa [writeFormula] using steps

theorem textual_writeRule {rule : Rule} (h : rule.clampDefault.isValid = true) :
    (writeRule rule).Textual := by
  have clamp := textual_writeCaps h
  obtain ⟨usePipeline, operator, clampDefault⟩ := rule
  cases operator <;> simpa [writeRule] using clamp

theorem textual_writeEngineSettings {settings : EngineSettings} (h : settings.validate = .ok ()) :
    (writeEngineSettings settings).Textual := by
  obtain ⟨_, _, h⟩ := bind_eq_ok.mp h
  obtain ⟨_, rules, h⟩ := bind_eq_ok.mp h
  obtain ⟨_, _, h⟩ := bind_eq_ok.mp h
  obtain ⟨_, formulas, bounds⟩ := bind_eq_ok.mp h
  have rules : settings.rules.rules.Every fun _ rule => (writeRule rule).Textual :=
    fun dimension rule held => textual_writeRule (RuleBook.isValid_clampDefault rules held)
  have formulas := fun formula member =>
    textual_writeFormula (forM_eq_ok.mp formulas formula member)
  have bounds : settings.bounds.Every fun _ range => (writeCaps range).Textual :=
    fun dimension range held =>
      textual_writeCaps (validateCaps_eq_ok.mp bounds dimension range held).2
  simpa [writeEngineSettings, writeLayerPlan, writeRuleBook, writeCacheSettings] using
    ⟨rules, formulas, bounds⟩

end Statline.Document
