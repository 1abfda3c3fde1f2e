import Statline.Engine
import Statline.Proofs.Aggregator.Registries
import Statline.Proofs.Resolver.Admission

namespace Statline

namespace Formula

/-- Names that are not all different have a first one that stands earlier in the list. -/
theorem exists_first_repeated {formulas : List Formula}
    (h : ¬(formulas.map (·.name)).Nodup) :
    ∃ before formula after, formulas = before ++ formula :: after ∧
      (before.map (·.name)).Nodup ∧ formula.name ∈ before.map (·.name) := by
  induction formulas using List.reverseRecOn with
  | nil => exact absurd List.nodup_nil h
  | append_singleton earlier last ih =>
    by_cases distinct : (earlier.map (·.name)).Nodup
    · have taken : last.name ∈ earlier.map (·.name) := by
        by_contra new
        refine h ?_
        rw [List.map_append]
        exact distinct.append (List.nodup_singleton _) (by simpa using new)
      exact ⟨earlier, last, [], rfl, distinct, taken⟩
    · obtain ⟨before, formula, after, rfl, different, taken⟩ := ih distinct
      exact ⟨before, formula, after ++ [last], by simp, different, taken⟩

end Formula

namespace Resolver

variable {resolver : Resolver} {staged : FormulaSheet} {formulas before after : List Formula}
  {formula : Formula} {stat : String} {range : Caps} {fault : Fault}

theorem adopt_of_order_error (h : staged.graph.order = .error fault) :
    resolver.adopt staged = .error fault := by
  simp only [adopt, FormulaSheet.build, h]

theorem ofFormulas_of_repeated (distinct : (before.map (·.name)).Nodup)
    (taken : formula.name ∈ before.map (·.name))
    (valid : ∀ other ∈ before ++ formula :: after, other.validate = .ok ()) :
    ofFormulas (before ++ formula :: after) = .error (.duplicateFormula formula.name) := by
  have earlier : ∃ staged, FormulaSheet.empty.addAll before = .ok staged :=
    FormulaSheet.addAll_of_nodup distinct fun other member =>
      valid other (List.mem_append_left _ member)
  obtain ⟨staged, added⟩ := earlier
  have taken : formula.name ∈ staged.names := by
    rw [FormulaSheet.names, FormulaSheet.formulas_of_addAll added]
    exact taken
  have refused := FormulaSheet.addAll_of_taken added (valid formula (by simp)) taken after
  exact bind_eq_error.mpr (.inl refused)

theorem ofFormulas_of_cyclic (distinct : (formulas.map (·.name)).Nodup)
    (valid : ∀ formula ∈ formulas, formula.validate = .ok ())
    (cyclic : ∃ name, Relation.TransGen (Declares formulas) name name) :
    ∃ path, IsCycle (Declares formulas) path ∧ ofFormulas formulas = .error (.cycle path) := by
  have all : ∃ staged, FormulaSheet.empty.addAll formulas = .ok staged :=
    FormulaSheet.addAll_of_nodup distinct valid
  obtain ⟨staged, added⟩ := all
  have same : staged.formulas = formulas := FormulaSheet.formulas_of_addAll added
  cases sorted : staged.graph.order with
  | ok order =>
    have acyclic := FormulaSheet.order_ok_iff_acyclic.mp ⟨order, sorted⟩
    exact absurd cyclic (same ▸ acyclic)
  | error fault =>
    obtain ⟨path, rfl, cycle⟩ := FormulaSheet.isCycle_of_order_error sorted
    have refused : empty.adopt staged = .error (.cycle path) := adopt_of_order_error sorted
    exact ⟨path, same ▸ cycle, bind_eq_error.mpr (.inr ⟨staged, added, refused⟩)⟩

theorem ofFormulas_of_tenable (h : Tenable formulas) :
    ∃ resolver, ofFormulas formulas = .ok resolver ∧ resolver.sheet.formulas = formulas ∧
      resolver.bounds = Table.empty := by
  obtain ⟨resolver, made⟩ := sound_empty.addAll_ok_iff.mpr h
  obtain ⟨staged, added, adopted⟩ := addAll_eq_ok made
  obtain ⟨order, _, rfl⟩ := adopt_eq_ok adopted
  exact ⟨_, made, FormulaSheet.formulas_of_addAll added, rfl⟩

theorem setBounds_of_valid (resolver : Resolver) (named : Text.isBlank stat = false)
    (valid : range.isValid = true) :
    resolver.setBounds stat range =
      .ok { resolver with bounds := resolver.bounds.insert stat range } := by
  have checked : Caps.checked stat range.min range.max = .ok range :=
    Caps.checked_eq_ok.mpr ⟨valid, rfl⟩
  simp only [setBounds, named, checked]
  rfl

theorem foldlM_setBounds {entries : List (String × Caps)}
    (h : ∀ entry ∈ entries, Text.isBlank entry.1 = false ∧ entry.2.isValid = true)
    (resolver : Resolver) :
    entries.foldlM (fun (resolver : Resolver) entry => resolver.setBounds entry.1 entry.2)
        resolver =
      .ok { resolver with
        bounds := entries.foldl (fun bounds entry => bounds.insert entry.1 entry.2)
          resolver.bounds } := by
  induction entries generalizing resolver with
  | nil => rfl
  | cons entry rest ih =>
    obtain ⟨⟨named, valid⟩, later⟩ := List.forall_mem_cons.mp h
    rw [List.foldlM_cons, resolver.setBounds_of_valid named valid]
    exact ih later _

end Resolver

theorem CacheSettings.validate_eq_ok {settings : CacheSettings} :
    settings.validate = .ok () ↔
      settings.maxSize ≠ 0 ∧ ∃ nanos, Ttl.parse settings.snapshotTtl = .ok nanos := by
  unfold validate
  dsimp only
  split
  next empty => exact ⟨nofun, fun h => absurd empty h.1⟩
  next sized => simp [sized, bind_eq_ok, pure, Except.pure]

namespace EngineSettings

variable {settings : EngineSettings}

theorem validate_eq_ok :
    settings.validate = .ok () ↔ settings.layers.validate = .ok () ∧
      settings.rules.validate = .ok () ∧ settings.cache.validate = .ok () ∧
      (∀ formula ∈ settings.formulas, formula.validate = .ok ()) ∧
      validateCaps settings.bounds = .ok () := by
  rw [validate, check_bind_eq_ok, check_bind_eq_ok, check_bind_eq_ok, check_bind_eq_ok, forM_eq_ok]

theorem validate_aggregator (h : settings.cache.validate = .ok ()) :
    settings.aggregator.validate = .ok () :=
  AggregatorSettings.validate_eq_ok.mpr (CacheSettings.validate_eq_ok.mp h).2

/-- The cache that the settings ask for, if they ask for one. -/
def newCache (settings : EngineSettings) : Option (Cache Snapshot) :=
  if settings.cache.enabled then
    some (Cache.create settings.cache.maxSize.toNat settings.cache.policy)
  else none

end EngineSettings

namespace Engine

/-- What the settings ask for, around a resolver with their formulas. -/
def assemble (settings : EngineSettings) (resolver : Resolver) : Engine where
  aggregator :=
    { Aggregator.create settings.newCache with
      rules := settings.rules
      layers := settings.layers
      settings := settings.aggregator }
  resolver := { resolver with bounds := resolver.bounds.merge settings.bounds }

variable {settings : EngineSettings}

/-- Once the settings are valid, nothing can fail but to put the formulas into force. -/
theorem build_of_valid (h : settings.validate = .ok ()) :
    build settings = (Resolver.ofFormulas settings.formulas).map (assemble settings) := by
  obtain ⟨ordered, ruled, cached, _, bounded⟩ := EngineSettings.validate_eq_ok.mp h
  have layers : LayerPlan.standard.apply settings.layers = .ok settings.layers :=
    LayerPlan.apply_eq_ok.mpr ⟨ordered, rfl⟩
  have rules : RuleBook.empty.apply settings.rules = .ok settings.rules :=
    RuleBook.apply_eq_ok.mpr ⟨ruled, congrArg RuleBook.mk (Table.empty_merge _)⟩
  have bounds := Resolver.foldlM_setBounds fun entry member =>
    validateCaps_eq_ok.mp bounded entry.1 entry.2 (Table.get?_eq_some_iff.mpr member)
  have configured : (Aggregator.create settings.newCache).configure settings.aggregator =
      .ok { Aggregator.create settings.newCache with settings := settings.aggregator } :=
    Aggregator.configure_eq_ok.mpr ⟨EngineSettings.validate_aggregator cached, rfl⟩
  cases founded : Resolver.ofFormulas settings.formulas with
  | error fault =>
    simp only [build, h, layers, rules, founded]
    rfl
  | ok resolver =>
    refine check_bind_eq_ok.mpr ⟨h, bind_eq_ok.mpr ⟨_, layers, bind_eq_ok.mpr ⟨_, rules, ?_⟩⟩⟩
    exact bind_eq_ok.mpr ⟨_, founded, bind_eq_ok.mpr ⟨_, bounds resolver,
      bind_eq_ok.mpr ⟨_, configured, rfl⟩⟩⟩

/-- The engine is made of what the settings ask for. -/
structure Realizes (engine : Engine) (settings : EngineSettings) : Prop where
  layers : engine.aggregator.layers = settings.layers
  rules : engine.aggregator.rules = settings.rules
  roster : engine.aggregator.roster = Roster.empty
  formulas : engine.resolver.sheet.formulas = settings.formulas
  bounds : engine.resolver.bounds = settings.bounds
  cache : engine.aggregator.cache = settings.newCache
  settings : engine.aggregator.settings = settings.aggregator
  valid : engine.aggregator.validate = .ok ()

theorem realizes_assemble {resolver : Resolver} (h : settings.validate = .ok ())
    (formulas : resolver.sheet.formulas = settings.formulas)
    (bounds : resolver.bounds = Table.empty) : (assemble settings resolver).Realizes settings := by
  obtain ⟨ordered, ruled, cached, _, _⟩ := EngineSettings.validate_eq_ok.mp h
  refine ⟨rfl, rfl, rfl, formulas, ?_, rfl, rfl, ?_⟩
  · simp only [assemble, bounds, Table.empty_merge]
  · exact Aggregator.validate_eq_ok.mpr ⟨EngineSettings.validate_aggregator cached, ruled, ordered⟩

/-- Settings that are not valid are refused by `build` as they are by `validate`. Valid ones are
refused for a first name that stands earlier in the list of the formulas, else for a cycle along
their dependencies, and else there is an engine that realizes them. -/
theorem build_outcome (settings : EngineSettings) :
    (∀ fault, settings.validate = .error fault → build settings = .error fault) ∧
    (settings.validate = .ok () →
      (¬(settings.formulas.map (·.name)).Nodup →
        ∃ before formula after, settings.formulas = before ++ formula :: after ∧
          (before.map (·.name)).Nodup ∧ formula.name ∈ before.map (·.name) ∧
          build settings = .error (.duplicateFormula formula.name)) ∧
      ((settings.formulas.map (·.name)).Nodup →
        ((∃ name, Relation.TransGen (Declares settings.formulas) name name) →
          ∃ path, IsCycle (Declares settings.formulas) path ∧
            build settings = .error (.cycle path)) ∧
        ((¬∃ name, Relation.TransGen (Declares settings.formulas) name name) →
          ∃ engine, build settings = .ok engine ∧ engine.Realizes settings))) := by
  refine ⟨fun fault refused => bind_eq_error.mpr (.inl refused), fun h => ?_⟩
  obtain ⟨_, _, _, valid, _⟩ := EngineSettings.validate_eq_ok.mp h
  refine ⟨fun repeated => ?_, fun distinct => ⟨fun cyclic => ?_, fun acyclic => ?_⟩⟩
  · obtain ⟨before, formula, after, split, different, taken⟩ :=
      Formula.exists_first_repeated repeated
    rw [split] at valid
    have refused := Resolver.ofFormulas_of_repeated different taken valid
    rw [← split] at refused
    refine ⟨before, formula, after, split, different, taken, ?_⟩
    rw [build_of_valid h, refused]
    rfl
  · obtain ⟨path, cycle, refused⟩ := Resolver.ofFormulas_of_cyclic distinct valid cyclic
    refine ⟨path, cycle, ?_⟩
    rw [build_of_valid h, refused]
    rfl
  · obtain ⟨resolver, founded, formulas, bounds⟩ :=
      Resolver.ofFormulas_of_tenable ⟨distinct, valid, acyclic⟩
    refine ⟨assemble settings resolver, ?_, realizes_assemble h formulas bounds⟩
    rw [build_of_valid h, founded]
    rfl

/-- A name that comes back is reported before the cycle that is closed with it. -/
example :
    (build { EngineSettings.standard with
      formulas := [⟨"power", ["speed"], []⟩, ⟨"speed", ["power"], []⟩, ⟨"power", [], []⟩] }).map
        (fun _ => ()) = .error (.duplicateFormula "power") := by
  decide +kernel

end Engine

end Statline
