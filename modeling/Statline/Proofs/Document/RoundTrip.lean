import Statline.Proofs.Document.Finiteness

namespace Statline.Document

@[simp] theorem readCaps_writeCaps (range : Caps) : readCaps (writeCaps range) = some range := rfl

@[simp] theorem readContribution_writeContribution (c : Contribution) :
    readContribution (writeContribution c) = some c := by
  simp [readContribution, writeContribution, record]

@[simp] theorem readCapContribution_writeCapContribution (c : CapContribution) :
    readCapContribution (writeCapContribution c) = some c := by
  obtain ⟨system, dimension, mode, value, priority, scope, realm, tags⟩ := c
  cases realm <;> cases tags <;>
    simp [readCapContribution, writeCapContribution, record, readRealm]

@[simp] theorem readOrigin_writeOrigin (origin : Origin) :
    readOrigin (writeOrigin origin) = some origin := by
  simp [readOrigin, writeOrigin, record]

@[simp] theorem readOutput_writeOutput (output : Output) :
    readOutput (writeOutput output) = some output := by
  simp [readOutput, writeOutput, record]

@[simp] theorem readTerm_writeTerm (term : Term) : readTerm (writeTerm term) = some term := by
  cases term <;> rfl

@[simp] theorem readStep_writeStep (step : Step) : readStep (writeStep step) = some step := by
  cases step <;> simp [readStep, writeStep, record]

@[simp] theorem readFormula_writeFormula (formula : Formula) :
    readFormula (writeFormula formula) = some formula := by
  simp [readFormula, writeFormula, record]

@[simp] theorem readOperator_writeMember (operator : Operator) :
    readOperator (writeMember operator) = some (some operator) := by
  cases operator <;> rfl

@[simp] theorem readRule_writeRule (rule : Rule) : readRule (writeRule rule) = some rule := by
  obtain ⟨usePipeline, operator, clampDefault⟩ := rule
  cases operator <;> simp [readRule, writeRule, record]

@[simp] theorem readRuleBook_writeRuleBook (book : RuleBook) :
    readRuleBook (writeRuleBook book) = some book := by
  simp [readRuleBook, writeRuleBook, record]

@[simp] theorem readLayerPlan_writeLayerPlan (plan : LayerPlan) :
    readLayerPlan (writeLayerPlan plan) = some plan := by
  simp [readLayerPlan, writeLayerPlan, record]

@[simp] theorem readCacheSettings_writeCacheSettings (settings : CacheSettings) :
    readCacheSettings (writeCacheSettings settings) = some settings := by
  simp [readCacheSettings, writeCacheSettings, record]

@[simp] theorem readEngineSettings_writeEngineSettings (settings : EngineSettings) :
    readEngineSettings (writeEngineSettings settings) = some settings := by
  simp [readEngineSettings, writeEngineSettings, record, readTable_writeTable readCaps_writeCaps]

theorem load_text {α : Type} [Document α] {value : α} (same : read (write value) = some value)
    (textual : (write value).Textual)
    (legible : ∀ x ∈ (write value).doubles, x.isFinite → Json.Legible x) :
    load α (toText value) = .ok value ∧ load α (write value).compactText = .ok value := by
  obtain ⟨compact, pretty⟩ := Json.parse?_text textual legible
  constructor
  · rw [load, toText, pretty, Option.bind_some, same]
  · rw [load, compact, Option.bind_some, same]

/-- Reading a document undoes writing it. The reader rounds the digits of a number before it scales
them and may miss the double that was written, so those in the document must be legible. -/
theorem reading_undoes_writing :
    (∀ settings : EngineSettings, settings.validate = .ok () →
      (∀ x ∈ (write settings).doubles, x.isFinite → Json.Legible x) →
      EngineSettings.ofText (toText settings) = .ok settings) ∧
    ∀ output : Output, output.validate = .ok () →
      (∀ x ∈ (write output).doubles, x.isFinite → Json.Legible x) →
      load Output (toText output) = .ok output ∧
        load Output (write output).compactText = .ok output := by
  constructor
  · intro settings valid legible
    have loaded := (load_text (readEngineSettings_writeEngineSettings settings)
      (textual_writeEngineSettings valid) legible).1
    rw [EngineSettings.ofText, loaded]
    exact bind_eq_ok.mpr ⟨settings, rfl, bind_eq_ok.mpr ⟨(), valid, rfl⟩⟩
  · intro output valid legible
    exact load_text (readOutput_writeOutput output) (textual_writeOutput valid) legible

/-- Settings with a rule, a step and a term of each kind. -/
def variedSettings : EngineSettings where
  layers := ⟨[.total, .realm], .union⟩
  rules := ⟨Table.ofList [("attack", ⟨true, none, ⟨0.5, 1e6⟩⟩),
    ("defense", ⟨false, some .average, ⟨-0.0, 1.5e-7⟩⟩)]⟩
  cache := ⟨false, 18446744073709551615, .volatileTtl, "30s"⟩
  checkActorVersion := true
  formulas := [⟨"power", ["attack", "\"shield\"\n"],
    [.flat (.constant 3), .mult (.scaled "\"shield\"\n" (-2.25)), .clamp (-10) 1e300]⟩]
  bounds := Table.ofList [("health", ⟨1, 100⟩)]

/-- An output with caps of two kinds: with realm and tags, and without either. -/
def variedOutput : Output where
  primary := [⟨"attack", .postAdd, 0.1, "sword", -9223372036854775808⟩]
  derived := []
  caps := [⟨"law", "attack", .hardMax, 50, 9223372036854775807, .guild, some "", ["a", "é\t"]⟩,
    ⟨"law", "speed", .additive, -7.5, 0, .world, none, []⟩]
  origin := ⟨"sword", 3⟩

theorem reading_undoes_writing_of_varied :
    variedSettings.validate = .ok () ∧
      EngineSettings.ofText (toText variedSettings) = .ok variedSettings ∧
      variedOutput.validate = .ok () ∧
      load Output (toText variedOutput) = .ok variedOutput ∧
      load Output (write variedOutput).compactText = .ok variedOutput := by
  have settings : variedSettings.validate = .ok () := by decide +kernel
  have output : variedOutput.validate = .ok () := by decide +kernel
  exact ⟨settings, reading_undoes_writing.1 variedSettings settings (by decide +kernel), output,
    reading_undoes_writing.2 variedOutput output (by decide +kernel)⟩

end Statline.Document
