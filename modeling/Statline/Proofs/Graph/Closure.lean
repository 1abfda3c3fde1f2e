import Statline.Proofs.Graph.Order
import Statline.Proofs.Search.Sweep

namespace Statline.Graph

variable {graph : Graph} {targets : List String} {name : String} {node : Nat}

def roots (graph : Graph) (targets : List String) : List Nat :=
  targets.filterMap (graph.index[·]?)

theorem mem_roots :
    node ∈ graph.roots targets ↔ ∃ target ∈ targets, graph.index[target]? = some node :=
  List.mem_filterMap

theorem reachable_ends (graph : Graph) (targets : List String) :
    ∃ last, Sweep.Ends graph.successors
        ⟨Array.replicate graph.size false, graph.roots targets⟩ last ∧
      graph.reachable targets = last.found := by
  refine ⟨_, Sweep.run_ends ?_, rfl⟩
  rw [edgeCount_eq, Sweep.weight]
  refine Nat.add_le_add_left (Finset.sum_le_sum_of_subset ?_) _
  simp [Sweep.missing]

/-- The sweep finds what can be reached from the targets. -/
theorem reachable_iff :
    (graph.reachable targets).getD node false = true ↔
      ∃ root ∈ graph.roots targets,
        Relation.ReflTransGen (Sweep.Edge graph.successors) root node := by
  obtain ⟨last, ends, same⟩ := graph.reachable_ends targets
  obtain ⟨explores, empty⟩ := ends.keeps (fun _ waits kept => kept.step waits)
    (Sweep.explores_start graph.successors graph.size (graph.roots targets))
  have known : ∀ root ∈ graph.roots targets, root < graph.size := by
    intro root member
    obtain ⟨target, _, entry⟩ := mem_roots.mp member
    exact index_lt entry
  have found := explores.has_iff empty known (fun _ _ => successors_lt) node
  rw [same]
  exact (Sweep.getD_found_eq_true explores.sized).trans found

/-- What the targets depend on, directly or not, and the known targets themselves. -/
def Reaches (graph : Graph) (targets : List String) (name : String) : Prop :=
  ∃ target ∈ targets, target ∈ graph.nodes ∧ Relation.ReflTransGen graph.DependsOn target name

theorem reaches_iff :
    graph.Reaches targets name ↔ ∃ node, (graph.reachable targets).getD node false = true ∧
      node < graph.size ∧ graph.nameOf node = name := by
  simp only [reachable_iff]
  constructor
  · rintro ⟨target, member, known, path⟩
    obtain ⟨root, entry⟩ := mem_nodes.mp known
    induction path with
    | refl =>
      exact ⟨root, ⟨root, mem_roots.mpr ⟨target, member, entry⟩, .refl⟩, index_lt entry,
        nameOf_eq_of_index entry⟩
    | tail _ edge ih =>
      obtain ⟨node, ⟨first, rooted, walk⟩, bound, rfl⟩ := ih
      obtain ⟨twin, next, inside, follows, same, rfl⟩ := edge.exists_node
      obtain rfl := nameOf_injOn inside bound same
      exact ⟨next, ⟨first, rooted, walk.tail follows⟩, successors_lt follows, rfl⟩
  · rintro ⟨node, ⟨root, rooted, walk⟩, _, rfl⟩
    obtain ⟨target, member, entry⟩ := mem_roots.mp rooted
    refine ⟨target, member, mem_nodes.mpr ⟨root, entry⟩, ?_⟩
    rw [← nameOf_eq_of_index entry]
    have within : ∀ node, Relation.ReflTransGen (Sweep.Edge graph.successors) root node →
        node < graph.size ∧
          Relation.ReflTransGen graph.DependsOn (graph.nameOf root) (graph.nameOf node) := by
      intro node walk
      induction walk with
      | refl => exact ⟨index_lt entry, .refl⟩
      | tail _ edge ih =>
        exact ⟨successors_lt edge, ih.2.tail (dependsOn_of_mem_successors ih.1 edge)⟩
    exact (within node walk).2

def kept (graph : Graph) (targets : List String) : List Nat :=
  (List.range graph.size).filter fun node => (graph.reachable targets).getD node false

theorem lt_of_mem_kept (h : node ∈ graph.kept targets) : node < graph.size :=
  List.mem_range.mp (List.mem_filter.mp h).1

theorem reaches_iff_kept :
    graph.Reaches targets name ↔ ∃ node ∈ graph.kept targets, graph.nameOf node = name := by
  simp only [reaches_iff, kept, List.mem_filter, List.mem_range]
  constructor
  · rintro ⟨node, seen, bound, same⟩
    exact ⟨node, ⟨bound, seen⟩, same⟩
  · rintro ⟨node, ⟨bound, seen⟩, same⟩
    exact ⟨node, seen, bound, same⟩

def closureCalls (graph : Graph) (targets : List String) : List Call :=
  (graph.kept targets).map (fun node => .node (graph.nameOf node)) ++
    (graph.kept targets).flatMap fun node =>
      (graph.successors node).map fun next => .dependency (graph.nameOf node) (graph.nameOf next)

theorem closure_eq (graph : Graph) (targets : List String) :
    graph.closure targets = after (graph.closureCalls targets) := by
  simp only [closure, after, closureCalls, kept, List.foldl_append, List.foldl_map,
    List.foldl_flatMap, call]

theorem dependsOn_closure {dependency : String} :
    (graph.closure targets).DependsOn name dependency ↔
      graph.Reaches targets name ∧ graph.DependsOn name dependency := by
  rw [closure_eq, dependsOn_after, reaches_iff_kept]
  simp only [closureCalls, List.mem_append, List.mem_map, List.mem_flatMap]
  constructor
  · rintro (⟨_, _, ⟨⟩⟩ | ⟨node, member, next, edge, ⟨⟩⟩)
    exact ⟨⟨node, member, rfl⟩, dependsOn_of_mem_successors (lt_of_mem_kept member) edge⟩
  · rintro ⟨⟨node, member, rfl⟩, depends⟩
    rw [DependsOn, dependencies_nameOf (lt_of_mem_kept member)] at depends
    obtain ⟨next, edge, rfl⟩ := List.mem_map.mp depends
    exact .inr ⟨node, member, next, edge, rfl⟩

theorem reaches_self (h : name ∈ graph.nodes) : graph.Reaches [name] name :=
  ⟨name, List.mem_singleton_self name, h, .refl⟩

theorem Reaches.tail {dependency : String} (h : graph.Reaches targets name)
    (edge : graph.DependsOn name dependency) : graph.Reaches targets dependency := by
  obtain ⟨target, member, known, path⟩ := h
  exact ⟨target, member, known, path.tail edge⟩

theorem Reaches.mem_nodes (h : graph.Reaches targets name) : name ∈ graph.nodes := by
  obtain ⟨node, _, bound, rfl⟩ := reaches_iff.mp h
  exact nameOf_mem_nodes bound

theorem nodup_kept (graph : Graph) (targets : List String) : (graph.kept targets).Nodup :=
  List.nodup_range.filter _

theorem nameOf_injOn_kept {first second : Nat} (hf : first ∈ graph.kept targets)
    (hs : second ∈ graph.kept targets) (h : graph.nameOf first = graph.nameOf second) :
    first = second :=
  nameOf_injOn (lt_of_mem_kept hf) (lt_of_mem_kept hs) h

theorem nodup_map_nameOf_kept (graph : Graph) (targets : List String) :
    ((graph.kept targets).map graph.nameOf).Nodup :=
  (graph.nodup_kept targets).map_on fun _ hf _ hs => nameOf_injOn_kept hf hs

theorem mem_kept_of_mem_successors {next : Nat} (h : node ∈ graph.kept targets)
    (edge : next ∈ graph.successors node) :
    graph.nameOf next ∈ (graph.kept targets).map graph.nameOf := by
  have reached := reaches_iff_kept.mpr ⟨node, h, rfl⟩
  obtain ⟨other, member, same⟩ := reaches_iff_kept.mp
    (reached.tail (dependsOn_of_mem_successors (lt_of_mem_kept h) edge))
  exact List.mem_map.mpr ⟨other, member, same⟩

/-- The nodes are added first and all of them, so the dependencies add none. -/
theorem nodes_closure (graph : Graph) (targets : List String) :
    (graph.closure targets).nodes = (graph.kept targets).map graph.nameOf := by
  rw [closure_eq, nodes_after, closureCalls, List.flatMap_append, List.flatMap_map]
  have listed : (graph.kept targets).flatMap (fun node => Call.names (.node (graph.nameOf node))) =
      (graph.kept targets).map graph.nameOf :=
    List.map_eq_flatMap.symm
  rw [listed]
  refine eraseDups_append_of_subset (graph.nodup_map_nameOf_kept targets) fun name member => ?_
  obtain ⟨made, member, named⟩ := List.mem_flatMap.mp member
  obtain ⟨node, inside, member⟩ := List.mem_flatMap.mp member
  obtain ⟨next, edge, rfl⟩ := List.mem_map.mp member
  rcases (by simpa [Call.names] using named : name = graph.nameOf node ∨
    name = graph.nameOf next) with rfl | rfl
  · exact List.mem_map_of_mem inside
  · exact mem_kept_of_mem_successors inside edge

theorem mem_nodes_closure : name ∈ (graph.closure targets).nodes ↔ graph.Reaches targets name := by
  rw [nodes_closure, List.mem_map, reaches_iff_kept]

theorem order_closure {order : List String} (h : graph.order = .ok order) (targets : List String) :
    ∃ part, (graph.closure targets).order = .ok part := by
  have acyclic := order_ok_iff.mp ⟨order, h⟩
  refine order_ok_iff.mpr fun ⟨name, cycle⟩ => acyclic ⟨name, ?_⟩
  exact Relation.TransGen.mono (fun _ _ edge => (dependsOn_closure.mp edge).2) _ _ cycle

end Statline.Graph
