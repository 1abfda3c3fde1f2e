import Statline.Proofs.Graph.Closure

namespace Statline.Graph

variable {graph : Graph} {targets : List String} {name : String} {node : Nat}

theorem nodes_closure_sublist (graph : Graph) (targets : List String) :
    (graph.closure targets).nodes.Sublist graph.nodes := by
  rw [nodes_closure, nodes_eq_map_range]
  exact List.filter_sublist.map graph.nameOf

theorem flatMap_of_unique {α β : Type} {items : List α} {item : α} {f : α → List β}
    (distinct : items.Nodup) (member : item ∈ items)
    (others : ∀ other ∈ items, other ≠ item → f other = []) : items.flatMap f = f item := by
  obtain ⟨before, later, rfl⟩ := List.append_of_mem member
  obtain ⟨_, tail, apart⟩ := List.nodup_append.mp distinct
  have first : before.flatMap f = [] := List.flatMap_eq_nil_iff.mpr fun other inside =>
    others other (by simp [inside]) (apart other inside item List.mem_cons_self)
  have last : later.flatMap f = [] := List.flatMap_eq_nil_iff.mpr fun other inside =>
    others other (by simp [inside]) fun same => (List.nodup_cons.mp tail).1 (same ▸ inside)
  rw [List.flatMap_append, List.flatMap_cons, first, last, List.nil_append, List.append_nil]

theorem filterMap_gives_dependencies (name : String) (node : Nat) :
    ((graph.successors node).map fun next =>
      Call.dependency (graph.nameOf node) (graph.nameOf next)).filterMap (Call.gives name) =
      if graph.nameOf node = name then (graph.successors node).map graph.nameOf else [] := by
  split
  next same => simp [List.filterMap_map, Function.comp_def, Call.gives, same]
  next apart => simp [Call.gives, apart]

/-- Each node that is kept receives its dependencies at once and in their order. -/
theorem dependencies_closure (h : name ∈ (graph.closure targets).nodes) :
    (graph.closure targets).dependencies name = graph.dependencies name := by
  rw [nodes_closure] at h
  obtain ⟨node, member, rfl⟩ := List.mem_map.mp h
  have unmentioned : ((graph.kept targets).map fun node => Call.node (graph.nameOf node)).filterMap
      (Call.gives (graph.nameOf node)) = [] := by
    simp [Call.gives]
  have others : ∀ other ∈ graph.kept targets, other ≠ node →
      ((graph.successors other).map fun next =>
        Call.dependency (graph.nameOf other) (graph.nameOf next)).filterMap
          (Call.gives (graph.nameOf node)) = [] := by
    intro other inside apart
    rw [filterMap_gives_dependencies,
      if_neg fun same => apart (nameOf_injOn_kept inside member same)]
  rw [closure_eq, dependencies_after, closureCalls, List.filterMap_append, unmentioned,
    List.nil_append, List.filterMap_flatMap,
    flatMap_of_unique (graph.nodup_kept targets) member others, filterMap_gives_dependencies,
    if_pos rfl, dependencies_nameOf (lt_of_mem_kept member)]

theorem reaches_after {calls : List Call} :
    (after calls).Reaches targets name ↔
      ∃ target ∈ targets, (∃ call ∈ calls, target ∈ call.names) ∧
        Relation.ReflTransGen
          (fun dependent dependency => .dependency dependent dependency ∈ calls) target name := by
  have edges : (after calls).DependsOn =
      fun dependent dependency => .dependency dependent dependency ∈ calls := by
    funext dependent dependency
    exact propext dependsOn_after
  simp only [Reaches, mem_nodes_after, edges]

/-- Taking the part of a graph that the targets depend on comes to an end without its budget. Its
nodes are the known targets and all that can be reached from them along the dependencies that were
added, in the order that they have in the whole graph, and each of them keeps its dependencies,
their order and repetitions included. -/
theorem closure_after_calls (calls : List Call) (targets : List String) :
    (∃ last, Sweep.Ends (after calls).successors
        ⟨Array.replicate (after calls).size false, (after calls).roots targets⟩ last ∧
      (after calls).reachable targets = last.found) ∧
    (∀ name, name ∈ ((after calls).closure targets).nodes ↔
      ∃ target ∈ targets, (∃ call ∈ calls, target ∈ call.names) ∧
        Relation.ReflTransGen
          (fun dependent dependency => .dependency dependent dependency ∈ calls) target name) ∧
    ((after calls).closure targets).nodes.Sublist (after calls).nodes ∧
    ∀ name ∈ ((after calls).closure targets).nodes,
      ((after calls).closure targets).dependencies name = (after calls).dependencies name :=
  ⟨reachable_ends _ targets, fun _ => mem_nodes_closure.trans reaches_after,
    nodes_closure_sublist _ targets, fun _ => dependencies_closure⟩

end Statline.Graph
