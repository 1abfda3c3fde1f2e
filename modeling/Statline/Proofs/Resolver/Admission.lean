import Statline.Proofs.Formula.Tenable
import Statline.Proofs.Resolver.Memo
import Statline.Proofs.Resolver.Substitution

namespace Statline.FormulaSheet

variable {sheet other : FormulaSheet}

theorem graph_congr (same : sheet.formulas = other.formulas) : sheet.graph = other.graph := by
  obtain ⟨_, _⟩ := sheet
  obtain ⟨_, _⟩ := other
  cases same
  rfl

theorem evaluate_congr_formulas (same : sheet.formulas = other.formulas) (order : List String)
    (primary : PrimaryStats) (previous : Option DerivedStats) :
    sheet.evaluate order primary previous = other.evaluate order primary previous := by
  obtain ⟨_, _⟩ := sheet
  obtain ⟨_, _⟩ := other
  cases same
  rfl

end Statline.FormulaSheet

namespace Statline.Resolver

variable {resolver next other : Resolver} {staged : FormulaSheet} {formula : Formula}
  {formulas : List Formula} {fault : Fault}

theorem adopt_eq_error (h : resolver.adopt staged = .error fault) :
    staged.graph.order = .error fault := by
  unfold adopt at h
  cases sorted : staged.graph.order with
  | ok order =>
    simp only [FormulaSheet.build, sorted] at h
    cases h
  | error other =>
    simp only [FormulaSheet.build, sorted] at h
    cases h
    rfl

theorem Sound.tenable (sound : resolver.Sound) : Tenable resolver.sheet.formulas :=
  sound.sheet.tenable sound.order

theorem Sound.addAll (sound : resolver.Sound) (h : resolver.addAll formulas = .ok next) :
    next.Sound := by
  obtain ⟨staged, added, adopted⟩ := addAll_eq_ok h
  exact .adopt (sound.sheet.addAll added) adopted

theorem faithful_of_addAll (h : resolver.addAll formulas = .ok next) : next.Faithful := by
  obtain ⟨staged, _, adopted⟩ := addAll_eq_ok h
  obtain ⟨_, _, rfl⟩ := adopt_eq_ok adopted
  exact .forget resolver _ _

/-- Formulas are accepted together when they can be in force with those that are. -/
theorem Sound.addAll_ok_iff (sound : resolver.Sound) :
    (∃ next, resolver.addAll formulas = .ok next) ↔
      Tenable (resolver.sheet.formulas ++ formulas) := by
  constructor
  · rintro ⟨next, h⟩
    have tenable := (sound.addAll h).tenable
    rwa [formulas_of_addAll h] at tenable
  · intro tenable
    obtain ⟨staged, added⟩ := FormulaSheet.addAll_of_nodup tenable.distinct fun formula member =>
      tenable.valid formula (List.mem_append_right _ member)
    have acyclic := tenable.acyclic
    rw [← FormulaSheet.formulas_of_addAll added] at acyclic
    obtain ⟨order, sorted⟩ := FormulaSheet.order_ok_iff_acyclic.mpr acyclic
    obtain ⟨next, adopted⟩ := adopt_of_order_ok resolver sorted
    exact ⟨next, bind_eq_ok.mpr ⟨staged, added, adopted⟩⟩

theorem Sound.add_ok_iff (sound : resolver.Sound) :
    (∃ next, resolver.add formula = .ok next) ↔
      Tenable (resolver.sheet.formulas ++ [formula]) :=
  sound.addAll_ok_iff

/-- One after another they are accepted under the same condition, since a part of formulas that can
be in force together can be in force alone. -/
theorem Sound.foldlM_add_ok_iff (sound : resolver.Sound) :
    (∃ last, formulas.foldlM add resolver = .ok last) ↔
      Tenable (resolver.sheet.formulas ++ formulas) := by
  induction formulas generalizing resolver with
  | nil => simpa using ⟨fun _ => sound.tenable, fun _ => ⟨resolver, rfl⟩⟩
  | cons first rest ih =>
    rw [List.append_cons]
    constructor
    · rintro ⟨last, h⟩
      rw [List.foldlM_cons] at h
      obtain ⟨next, added, h⟩ := bind_eq_ok.mp h
      rw [← formulas_of_addAll added]
      exact (ih (sound.addAll added)).mp ⟨last, h⟩
    · intro tenable
      obtain ⟨next, added⟩ := sound.add_ok_iff.mpr (tenable.sublist (List.sublist_append_left _ _))
      rw [← formulas_of_addAll added] at tenable
      obtain ⟨last, h⟩ := (ih (sound.addAll added)).mpr tenable
      exact ⟨last, by rw [List.foldlM_cons]; exact bind_eq_ok.mpr ⟨next, added, h⟩⟩

theorem foldlM_add_eq_ok (sound : resolver.Sound) (faithful : resolver.Faithful)
    (h : formulas.foldlM add resolver = .ok next) :
    next.Sound ∧ next.Faithful ∧ next.sheet.formulas = resolver.sheet.formulas ++ formulas := by
  induction formulas generalizing resolver with
  | nil => cases h; exact ⟨sound, faithful, by simp⟩
  | cons first rest ih =>
    rw [List.foldlM_cons] at h
    obtain ⟨middle, added, h⟩ := bind_eq_ok.mp h
    obtain ⟨soundly, faithfully, all⟩ := ih (sound.addAll added) (faithful_of_addAll added) h
    refine ⟨soundly, faithfully, ?_⟩
    rw [all, formulas_of_addAll added, List.append_assoc, List.singleton_append]

section twins

variable (same : resolver.sheet.formulas = other.sheet.formulas)

include same

theorem compute_eq_of_formulas (name : String) (primary : PrimaryStats) :
    resolver.compute name primary = other.compute name primary := by
  simp only [compute, FormulaSheet.graph_congr same, FormulaSheet.evaluate_congr_formulas same]

theorem resolveStat_eq_of_formulas (faithful : resolver.Faithful) (truthful : other.Faithful)
    (name : String) (primary : PrimaryStats) :
    (resolver.resolveStat name primary).1 = (other.resolveStat name primary).1 := by
  by_cases registered : name ∈ resolver.sheet.names
  · have known : name ∈ other.sheet.names := by rwa [FormulaSheet.names, ← same]
    rw [faithful.resolveStat_eq registered, truthful.resolveStat_eq known]
    exact compute_eq_of_formulas same name primary
  · have unknown : name ∉ other.sheet.names := by rwa [FormulaSheet.names, ← same]
    rw [resolveStat_of_not_mem registered, resolveStat_of_not_mem unknown]

variable (sound : resolver.Sound) (twin : other.Sound)

include sound twin

/-- The order of the evaluation is a matter of the formulas and of the order in which they came. -/
theorem order_eq_of_formulas : resolver.order = other.order := by
  have sorted := sound.order
  rw [FormulaSheet.graph_congr same, twin.order] at sorted
  exact (Except.ok.inj sorted).symm

theorem resolve_eq_of_formulas (primary : PrimaryStats) (previous : Option DerivedStats) :
    resolver.resolve primary previous = other.resolve primary previous := by
  rw [resolve, resolve, order_eq_of_formulas same sound twin,
    FormulaSheet.evaluate_congr_formulas same]

end twins

theorem Sound.add_eq_error (sound : resolver.Sound) (valid : formula.validate = .ok ())
    (new : formula.name ∉ resolver.sheet.names) (h : resolver.add formula = .error fault) :
    ∃ path, fault = .cycle path ∧ formula.name ∈ path ∧
      IsCycle (Declares (resolver.sheet.formulas ++ [formula])) path := by
  have staged : resolver.sheet.addAll [formula] =
      .ok ⟨resolver.sheet.formulas ++ [formula], none⟩ :=
    bind_eq_ok.mpr ⟨_, FormulaSheet.add_of_new valid new, rfl⟩
  have refused : resolver.adopt ⟨resolver.sheet.formulas ++ [formula], none⟩ = .error fault := by
    rcases bind_eq_error.mp h with failed | ⟨_, added, refused⟩
    · cases staged.symm.trans failed
    · cases staged.symm.trans added
      exact refused
  obtain ⟨path, rfl, cycle⟩ := FormulaSheet.isCycle_of_order_error (adopt_eq_error refused)
  exact ⟨path, rfl, sound.tenable.mem_of_isCycle cycle, cycle⟩

/-- Whatever calls came before, a valid formula with a new name is accepted unless the name comes
round to itself, through what its formula declares and through formulas that read it as an input so
far. The cycle that is reported then leads through the name. -/
theorem add_ok_iff_acyclic (calls : List Call) (formula : Formula)
    (valid : formula.validate = .ok ()) (new : formula.name ∉ (after calls).sheet.names) :
    ((∃ next, (after calls).add formula = .ok next) ↔
      ¬Relation.TransGen (Declares ((after calls).sheet.formulas ++ [formula])) formula.name
        formula.name) ∧
    ∀ fault, (after calls).add formula = .error fault →
      ∃ path, fault = .cycle path ∧ formula.name ∈ path ∧
        IsCycle (Declares ((after calls).sheet.formulas ++ [formula])) path := by
  have sound := sound_after calls
  refine ⟨⟨fun accepted loop => ?_, fun acyclic => ?_⟩, fun fault => sound.add_eq_error valid new⟩
  · exact (sound.add_ok_iff.mp accepted).acyclic ⟨formula.name, loop⟩
  · cases added : (after calls).add formula with
    | ok next => exact ⟨next, rfl⟩
    | error fault =>
      obtain ⟨path, _, through, cycle⟩ := sound.add_eq_error valid new added
      exact absurd (cycle.transGen_of_mem through) acyclic

/-- Strength is an input of the attack until it has a formula of its own. -/
def training : Formula :=
  ⟨"strength", ["rating"], [.flat (.scaled "rating" 0.1)]⟩

theorem training_refused :
    training.validate = .ok () ∧ training.name ∉ (after [.addAll weapons]).sheet.names ∧
      ∃ path, (after [.addAll weapons]).add training = .error (.cycle path) ∧
        "strength" ∈ path := by
  have valid : training.validate = .ok () := by decide +kernel
  have new : training.name ∉ (after [.addAll weapons]).sheet.names := by
    rw [after_addAll_weapons]
    decide
  obtain ⟨accepted, refused⟩ := add_ok_iff_acyclic [.addAll weapons] training valid new
  have loop : Relation.TransGen (Declares ((after [.addAll weapons]).sheet.formulas ++ [training]))
      "strength" "strength" := by
    rw [after_addAll_weapons]
    have first : Declares (weapons ++ [training]) "strength" "rating" := by
      unfold Declares
      decide
    have second : Declares (weapons ++ [training]) "rating" "attack" := by
      unfold Declares
      decide
    have third : Declares (weapons ++ [training]) "attack" "strength" := by
      unfold Declares
      decide
    exact .tail (.tail (.single first) second) third
  refine ⟨valid, new, ?_⟩
  cases added : (after [.addAll weapons]).add training with
  | ok next => exact absurd loop (accepted.mp ⟨next, added⟩)
  | error fault =>
    obtain ⟨path, rfl, through, _⟩ := refused fault added
    exact ⟨path, rfl, through⟩

/-- Whatever calls came before, formulas are accepted together exactly when they are accepted one
after another; and either way the same formulas are in force, in the same order, and give the same
results. -/
theorem addAll_ok_iff_one_by_one (calls : List Call) (formulas : List Formula) :
    ((∃ batch, (after calls).addAll formulas = .ok batch) ↔
      ∃ last, formulas.foldlM add (after calls) = .ok last) ∧
    ∀ batch last, (after calls).addAll formulas = .ok batch →
      formulas.foldlM add (after calls) = .ok last →
      batch.sheet.formulas = (after calls).sheet.formulas ++ formulas ∧
      last.sheet.formulas = batch.sheet.formulas ∧ last.order = batch.order ∧
      (∀ primary previous, last.resolve primary previous = batch.resolve primary previous) ∧
      ∀ name primary,
        (last.resolveStat name primary).1 = (batch.resolveStat name primary).1 := by
  have sound := sound_after calls
  refine ⟨sound.addAll_ok_iff.trans sound.foldlM_add_ok_iff.symm, fun batch last ha hf => ?_⟩
  obtain ⟨soundly, faithfully, all⟩ := foldlM_add_eq_ok sound (faithful_after calls) hf
  have whole := formulas_of_addAll ha
  have same := all.trans whole.symm
  have twin := sound.addAll ha
  exact ⟨whole, same, order_eq_of_formulas same soundly twin,
    resolve_eq_of_formulas same soundly twin,
    resolveStat_eq_of_formulas same faithfully (faithful_of_addAll ha)⟩

end Statline.Resolver
