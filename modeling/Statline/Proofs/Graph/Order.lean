import Statline.Proofs.Graph.Construction
import Statline.Proofs.Search.Cycle

namespace Statline.Graph

variable {graph : Graph} {order : List String}

/-- One name is a direct dependency of the other. -/
def DependsOn (graph : Graph) (dependent dependency : String) : Prop :=
  dependency ∈ graph.dependencies dependent

theorem dependsOn_of_mem_successors {node next : Nat} (bound : node < graph.size)
    (h : next ∈ graph.successors node) :
    graph.DependsOn (graph.nameOf node) (graph.nameOf next) := by
  rw [DependsOn, dependencies_nameOf bound]
  exact List.mem_map_of_mem h

theorem DependsOn.exists_node {dependent dependency : String}
    (h : graph.DependsOn dependent dependency) :
    ∃ node next, node < graph.size ∧ next ∈ graph.successors node ∧
      graph.nameOf node = dependent ∧ graph.nameOf next = dependency := by
  by_cases known : dependent ∈ graph.nodes
  · obtain ⟨node, entry⟩ := mem_nodes.mp known
    rw [DependsOn, dependencies_of_index entry] at h
    obtain ⟨next, member, same⟩ := List.mem_map.mp h
    exact ⟨node, next, index_lt entry, member, nameOf_eq_of_index entry, same⟩
  · simp [DependsOn, dependencies_eq_nil known] at h

theorem order_eq_ok (h : graph.order = .ok order) :
    ∃ search, graph.searchAll = .ok search ∧ order = search.finished.reverse.map graph.nameOf := by
  unfold Graph.order at h
  split at h
  next search found => exact ⟨search, found, (Except.ok.inj h).symm⟩
  next => cases h

theorem order_eq_error {fault : Fault} (h : graph.order = .error fault) :
    ∃ path, graph.searchAll = .error path ∧ fault = .cycle (path.map graph.nameOf) := by
  unfold Graph.order at h
  split at h
  next => cases h
  next path met => exact ⟨path, met, (Except.error.inj h).symm⟩

theorem searchAll_ok {search : Search} (h : graph.searchAll = .ok search) :
    Search.Settled graph.successors search.finished ∧
      ∀ node, node ∈ search.finished ↔ node < graph.size :=
  Search.Visits.finished_iff (fun _ _ => successors_lt) (h ▸ graph.visits_searchAll)

theorem searchAll_error {path : List Nat} (h : graph.searchAll = .error path) :
    IsCycle (fun node next => next ∈ graph.successors node) path ∧
      ∀ node ∈ path, node < graph.size := by
  have outcome := graph.visits_searchAll.valid fun _ _ => successors_lt
  rw [h] at outcome
  obtain ⟨last, valid, met⟩ := outcome
  exact valid.isCycle met

theorem isCycle_of_order_error {fault : Fault} (h : graph.order = .error fault) :
    ∃ path, fault = .cycle path ∧ IsCycle graph.DependsOn path := by
  obtain ⟨path, met, rfl⟩ := order_eq_error h
  obtain ⟨cycle, bound⟩ := searchAll_error met
  refine ⟨_, rfl, cycle.map ?_ ?_⟩
  · intro first hf second hs same
    exact nameOf_injOn (bound first hf) (bound second hs) same
  · intro node hn next _ edge
    exact dependsOn_of_mem_successors (bound node hn) edge

theorem mem_order (h : graph.order = .ok order) {name : String} :
    name ∈ order ↔ name ∈ graph.nodes := by
  obtain ⟨search, found, rfl⟩ := order_eq_ok h
  simp [nodes_eq_map_range, (searchAll_ok found).2]

theorem nodup_order (h : graph.order = .ok order) : order.Nodup := by
  obtain ⟨search, found, rfl⟩ := order_eq_ok h
  obtain ⟨settled, all⟩ := searchAll_ok found
  refine (List.nodup_reverse.mpr settled.nodup).map_on ?_
  intro first hf second hs same
  exact nameOf_injOn ((all first).mp (List.mem_reverse.mp hf))
    ((all second).mp (List.mem_reverse.mp hs)) same

theorem split_order (h : graph.order = .ok order) {name : String} (hn : name ∈ order) :
    ∃ before later, order = before ++ name :: later ∧
      ∀ dependency, graph.DependsOn name dependency → dependency ∈ before := by
  obtain ⟨search, found, rfl⟩ := order_eq_ok h
  obtain ⟨settled, all⟩ := searchAll_ok found
  obtain ⟨node, member, rfl⟩ := List.mem_map.mp hn
  rw [List.mem_reverse] at member
  obtain ⟨later, earlier, split, follows⟩ := settled.split member
  refine ⟨earlier.reverse.map graph.nameOf, later.reverse.map graph.nameOf, by simp [split], ?_⟩
  intro dependency depends
  rw [DependsOn, dependencies_nameOf ((all node).mp member)] at depends
  obtain ⟨next, hn, rfl⟩ := List.mem_map.mp depends
  exact List.mem_map_of_mem (List.mem_reverse.mpr (follows next hn))

theorem not_mem_before {before later : List String} {name : String}
    (h : graph.order = .ok (before ++ name :: later)) : name ∉ before := fun inside =>
  (List.nodup_append.mp (nodup_order h)).2.2 name inside name List.mem_cons_self rfl

theorem idxOf_lt_idxOf (h : graph.order = .ok order) {dependent dependency : String}
    (depends : graph.DependsOn dependent dependency) :
    order.idxOf dependency < order.idxOf dependent := by
  obtain ⟨node, next, bound, _, rfl, _⟩ := depends.exists_node
  have member := (mem_order h).mpr (nameOf_mem_nodes bound)
  obtain ⟨before, later, rfl, follows⟩ := split_order h member
  have first := follows dependency depends
  rw [List.idxOf_append_of_mem first, List.idxOf_append_of_notMem (not_mem_before h),
    List.idxOf_cons_self]
  exact List.idxOf_lt_length_of_mem first

theorem mem_before_of_dependsOn {before later : List String} {dependent dependency : String}
    (h : graph.order = .ok (before ++ dependent :: later))
    (depends : graph.DependsOn dependent dependency) : dependency ∈ before := by
  have first := idxOf_lt_idxOf h depends
  rw [List.idxOf_append_of_notMem (not_mem_before h), List.idxOf_cons_self] at first
  by_contra outside
  rw [List.idxOf_append_of_notMem outside] at first
  omega

theorem idxOf_lt_of_transGen (h : graph.order = .ok order) {dependent dependency : String}
    (depends : Relation.TransGen graph.DependsOn dependent dependency) :
    order.idxOf dependency < order.idxOf dependent := by
  induction depends with
  | single edge => exact idxOf_lt_idxOf h edge
  | tail _ edge ih => exact (idxOf_lt_idxOf h edge).trans ih

theorem order_ok_iff :
    (∃ order, graph.order = .ok order) ↔ ¬∃ name, Relation.TransGen graph.DependsOn name name := by
  constructor
  · rintro ⟨order, h⟩ ⟨name, cycle⟩
    exact Nat.lt_irrefl _ (idxOf_lt_of_transGen h cycle)
  · intro acyclic
    cases h : graph.order with
    | ok order => exact ⟨order, rfl⟩
    | error fault =>
      obtain ⟨path, _, cycle⟩ := isCycle_of_order_error h
      exact absurd cycle.transGen acyclic

theorem dependsOn_after {calls : List Call} {dependent dependency : String} :
    (after calls).DependsOn dependent dependency ↔ .dependency dependent dependency ∈ calls :=
  mem_dependencies_after

/-- Sorting a graph comes to an end without its budget. It fails exactly when the dependencies that
were added form a cycle; otherwise every name that was mentioned is listed once, after all that it
depends on. -/
theorem order_after_calls (calls : List Call) :
    Search.Visits (after calls).successors (List.range (after calls).size)
        (Search.start (after calls).size) (after calls).searchAll ∧
      ((∃ order, (after calls).order = .ok order) ↔
        ¬∃ name, Relation.TransGen
          (fun dependent dependency => .dependency dependent dependency ∈ calls) name name) ∧
      ∀ order, (after calls).order = .ok order →
        order.Nodup ∧
        (∀ name, name ∈ order ↔ ∃ call ∈ calls, name ∈ call.names) ∧
        ∀ dependent dependency, .dependency dependent dependency ∈ calls →
          order.idxOf dependency < order.idxOf dependent := by
  have edges : (after calls).DependsOn =
      fun dependent dependency => .dependency dependent dependency ∈ calls := by
    funext dependent dependency
    exact propext dependsOn_after
  refine ⟨visits_searchAll _, edges ▸ order_ok_iff, ?_⟩
  intro order h
  refine ⟨nodup_order h, fun name => (mem_order h).trans mem_nodes_after, ?_⟩
  intro dependent dependency added
  exact idxOf_lt_idxOf h (dependsOn_after.mpr added)

end Statline.Graph
