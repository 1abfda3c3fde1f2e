import Statline.Proofs.Formula.Evaluation
import Statline.Proofs.Graph.Order

namespace Statline

theorem Step.mem_deps_of_flaw {deps : List String} {index : Nat} {step : Step}
    (h : step.flaw deps index = none) {stat : String} (hr : step.reads = some stat) :
    stat ∈ deps := by
  cases step with
  | flat term | mult term =>
    have read : term.reads = some stat := hr
    simp only [flaw, read] at h
    split at h
    next => cases h
    next =>
      split at h
      next declared => exact declared
      next => cases h
  | clamp min max => cases hr

theorem Formula.flaw_of_stepFlaw {deps : List String} {index : Nat} {steps : List Step}
    (h : stepFlaw deps index steps = none) :
    ∀ step ∈ steps, ∃ place, step.flaw deps place = none := by
  induction steps generalizing index with
  | nil => simp
  | cons first rest ih =>
    obtain ⟨sound, later⟩ := Option.or_eq_none_iff.mp h
    intro step member
    rcases List.mem_cons.mp member with rfl | member
    · exact ⟨index, sound⟩
    · exact ih later step member

theorem Formula.flaw_of_validate {formula : Formula} (h : formula.validate = .ok ()) :
    ∀ step ∈ formula.steps, ∃ place, step.flaw formula.deps place = none := by
  unfold validate at h
  split at h
  next => cases h
  next =>
    split at h
    next => cases h
    next sound => exact flaw_of_stepFlaw (Option.or_eq_none_iff.mp sound).2

theorem Formula.mem_deps_of_mem_reads {formula : Formula} (h : formula.validate = .ok ())
    {stat : String} (hr : stat ∈ formula.reads) : stat ∈ formula.deps := by
  obtain ⟨step, hs, hr⟩ := List.mem_filterMap.mp hr
  obtain ⟨place, flawless⟩ := flaw_of_validate h step hs
  exact Step.mem_deps_of_flaw flawless hr

namespace FormulaSheet

variable {sheet : FormulaSheet}

def graphCalls (sheet : FormulaSheet) : List Graph.Call :=
  sheet.formulas.map (fun formula => .node formula.name) ++
    sheet.formulas.flatMap fun formula =>
      (formula.deps.filter sheet.contains).map fun dep => .dependency formula.name dep

theorem graph_eq (sheet : FormulaSheet) : sheet.graph = Graph.after sheet.graphCalls := by
  simp only [graph, Graph.after, graphCalls, List.foldl_append, List.foldl_map, List.foldl_flatMap,
    Graph.call]

theorem dependency_mem_graphCalls {name dep : String} :
    .dependency name dep ∈ sheet.graphCalls ↔
      ∃ formula ∈ sheet.formulas, formula.name = name ∧ dep ∈ formula.deps ∧ dep ∈ sheet.names := by
  simp only [graphCalls, List.mem_append, List.mem_map, List.mem_flatMap, List.mem_filter,
    contains_eq_true]
  constructor
  · rintro (⟨_, _, ⟨⟩⟩ | ⟨formula, member, other, ⟨declared, registered⟩, ⟨⟩⟩)
    exact ⟨formula, member, rfl, declared, registered⟩
  · rintro ⟨formula, member, rfl, declared, registered⟩
    exact .inr ⟨formula, member, dep, ⟨declared, registered⟩, rfl⟩

theorem dependsOn_graph {name dep : String} :
    sheet.graph.DependsOn name dep ↔
      ∃ formula ∈ sheet.formulas, formula.name = name ∧ dep ∈ formula.deps ∧ dep ∈ sheet.names := by
  rw [graph_eq, Graph.dependsOn_after, dependency_mem_graphCalls]

theorem mem_nodes_graph {name : String} : name ∈ sheet.graph.nodes ↔ name ∈ sheet.names := by
  rw [graph_eq, Graph.mem_nodes_after]
  constructor
  · rintro ⟨call, member, named⟩
    cases call with
    | node other =>
      obtain rfl : name = other := by simpa [Graph.Call.names] using named
      simpa [graphCalls, names] using member
    | dependency dependent dep =>
      obtain ⟨formula, hf, rfl, _, registered⟩ := dependency_mem_graphCalls.mp member
      rcases (by simpa [Graph.Call.names] using named : name = formula.name ∨ name = dep) with
        rfl | rfl
      · exact List.mem_map_of_mem hf
      · exact registered
  · intro registered
    obtain ⟨formula, hf, rfl⟩ := List.mem_map.mp registered
    refine ⟨.node formula.name, List.mem_append_left _ (List.mem_map_of_mem hf), ?_⟩
    simp [Graph.Call.names]

/-- What every change of a sheet preserves. -/
structure Sound (sheet : FormulaSheet) : Prop where
  distinct : sheet.names.Nodup
  valid : ∀ formula ∈ sheet.formulas, formula.validate = .ok ()

theorem sound_empty : empty.Sound := ⟨.nil, by simp [empty]⟩

theorem Sound.dependsOn_of_reads (sound : sheet.Sound) {formula : Formula}
    (member : formula ∈ sheet.formulas) {stat : String} (read : stat ∈ formula.reads)
    (registered : stat ∈ sheet.names) : sheet.graph.DependsOn formula.name stat :=
  dependsOn_graph.mpr ⟨formula, member, rfl,
    Formula.mem_deps_of_mem_reads (sound.valid formula member) read, registered⟩

/-- An order of a part of the graph in which no dependency is missing can be evaluated. -/
theorem Sound.ready (sound : sheet.Sound) {part : Graph} {order : List String}
    (h : part.order = .ok order) (known : ∀ name ∈ part.nodes, name ∈ sheet.names)
    (whole : ∀ name ∈ part.nodes, ∀ dep, sheet.graph.DependsOn name dep → part.DependsOn name dep) :
    sheet.Ready [] order := by
  suffices general : ∀ rest done, order = done ++ rest → sheet.Ready done rest from
    general order [] rfl
  intro rest
  induction rest with
  | nil => intros; trivial
  | cons name rest ih =>
    intro done split
    have here : name ∈ part.nodes := (Graph.mem_order h).mp (by simp [split])
    obtain ⟨formula, member, rfl⟩ := List.mem_map.mp (known name here)
    refine ⟨⟨formula, formula?_of_mem sound.distinct member, ?_⟩, ih _ (by simp [split])⟩
    intro stat read registered
    have depends := whole _ here stat (sound.dependsOn_of_reads member read registered)
    exact Graph.mem_before_of_dependsOn (split ▸ h) depends

theorem Sound.perm_of_order (sound : sheet.Sound) {order : List String}
    (h : sheet.graph.order = .ok order) : order.Perm sheet.names := by
  refine (List.perm_ext_iff_of_nodup (Graph.nodup_order h) sound.distinct).mpr fun name => ?_
  exact (Graph.mem_order h).trans mem_nodes_graph

theorem idxOf_lt_idxOf {order : List String} (h : sheet.graph.order = .ok order) {formula : Formula}
    (member : formula ∈ sheet.formulas) {dep : String} (declared : dep ∈ formula.deps)
    (registered : dep ∈ sheet.names) : order.idxOf dep < order.idxOf formula.name :=
  Graph.idxOf_lt_idxOf h (dependsOn_graph.mpr ⟨formula, member, rfl, declared, registered⟩)

theorem add_eq_ok {after : FormulaSheet} {formula : Formula} (h : sheet.add formula = .ok after) :
    formula.validate = .ok () ∧ formula.name ∉ sheet.names ∧
      after = ⟨sheet.formulas ++ [formula], none⟩ := by
  obtain ⟨_, valid, h⟩ := bind_eq_ok.mp h
  split at h
  next => cases h
  next unknown =>
    cases h
    exact ⟨valid, fun taken => unknown (contains_eq_true.mpr taken), rfl⟩

theorem remove_eq_ok {after : FormulaSheet} {name : String} {formula : Formula}
    (h : sheet.remove name = .ok (formula, after)) :
    after = ⟨sheet.formulas.filter (·.name ≠ name), none⟩ := by
  unfold remove at h
  split at h
  next => cases h; rfl
  next => cases h

theorem Sound.add (sound : sheet.Sound) {after : FormulaSheet} {formula : Formula}
    (h : sheet.add formula = .ok after) : after.Sound := by
  obtain ⟨valid, new, rfl⟩ := add_eq_ok h
  constructor
  · have apart : ∀ name ∈ sheet.names, name ≠ formula.name := fun name member same =>
      new (same ▸ member)
    simpa [names, List.nodup_append] using ⟨sound.distinct, by simpa [names] using apart⟩
  · intro other member
    rcases List.mem_append.mp member with member | member
    · exact sound.valid other member
    · exact List.mem_singleton.mp member ▸ valid

theorem Sound.addAll (sound : sheet.Sound) {after : FormulaSheet} {formulas : List Formula}
    (h : sheet.addAll formulas = .ok after) : after.Sound := by
  induction formulas generalizing sheet with
  | nil => cases h; exact sound
  | cons first rest ih =>
    rw [FormulaSheet.addAll, List.foldlM_cons] at h
    obtain ⟨next, added, h⟩ := bind_eq_ok.mp h
    exact ih (sound.add added) h

theorem Sound.remove (sound : sheet.Sound) {after : FormulaSheet} {name : String}
    {formula : Formula} (h : sheet.remove name = .ok (formula, after)) : after.Sound := by
  rw [remove_eq_ok h]
  constructor
  · exact sound.distinct.sublist (List.filter_sublist.map _)
  · intro other member
    exact sound.valid other (List.mem_filter.mp member).1

end FormulaSheet

end Statline
