import Mathlib.Data.List.Nodup
import Statline.Graph.Basic

namespace Statline.Graph

variable {graph : Graph} {name other : String} {node next : Nat}

theorem index_lt (h : graph.index[name]? = some node) : node < graph.size :=
  (Array.getElem?_eq_some_iff.mp ((graph.indexed name node).mp h)).1

theorem nameOf_eq_of_index (h : graph.index[name]? = some node) : graph.nameOf node = name := by
  simp [nameOf, (graph.indexed name node).mp h]

theorem index_nameOf (h : node < graph.size) : graph.index[graph.nameOf node]? = some node := by
  apply (graph.indexed _ _).mpr
  simp [nameOf, show node < graph.names.size from h]

theorem nameOf_injOn {first second : Nat} (hf : first < graph.size) (hs : second < graph.size)
    (h : graph.nameOf first = graph.nameOf second) : first = second := by
  have entry := index_nameOf hf
  rw [h, index_nameOf hs] at entry
  exact (Option.some.inj entry).symm

theorem mem_nodes : name ∈ graph.nodes ↔ ∃ node, graph.index[name]? = some node := by
  simp only [nodes, Array.mem_toList_iff, Array.mem_iff_getElem?, graph.indexed]

theorem nameOf_mem_nodes (h : node < graph.size) : graph.nameOf node ∈ graph.nodes :=
  mem_nodes.mpr ⟨node, index_nameOf h⟩

theorem contains_eq_true : graph.contains name = true ↔ name ∈ graph.nodes := by
  rw [mem_nodes, contains, Std.HashMap.contains_eq_isSome_getElem?, Option.isSome_iff_exists]

theorem nodes_eq_map_range : graph.nodes = (List.range graph.size).map graph.nameOf := by
  apply List.ext_getElem (by simp [nodes, size])
  intro i hi hj
  have bound : i < graph.names.size := by simpa [nodes] using hi
  simp [nodes, nameOf, bound]

theorem successors_lt (h : next ∈ graph.successors node) : next < graph.size := by
  rw [successors, Array.mem_toList_iff, Array.getD_eq_getD_getElem?] at h
  cases entry : graph.edges[node]? with
  | none => simp [entry] at h
  | some targets =>
    rw [entry, Option.getD_some] at h
    exact graph.edges_lt targets (Array.mem_of_getElem? entry) next h

theorem successors_eq_nil (h : graph.size ≤ node) : graph.successors node = [] := by
  have bound : graph.edges.size ≤ node := Nat.le_trans (Nat.le_of_eq graph.edges_size) h
  simp [successors, bound]

theorem dependencies_of_index (h : graph.index[name]? = some node) :
    graph.dependencies name = (graph.successors node).map graph.nameOf := by
  simp [dependencies, h]

theorem dependencies_nameOf (h : node < graph.size) :
    graph.dependencies (graph.nameOf node) = (graph.successors node).map graph.nameOf :=
  dependencies_of_index (index_nameOf h)

theorem dependencies_eq_nil (h : name ∉ graph.nodes) : graph.dependencies name = [] := by
  cases entry : graph.index[name]? with
  | none => simp [dependencies, entry]
  | some node => exact absurd (mem_nodes.mpr ⟨node, entry⟩) h

theorem addNode_of_mem (h : name ∈ graph.nodes) : (graph.addNode name).1 = graph := by
  obtain ⟨node, entry⟩ := mem_nodes.mp h
  unfold addNode
  split
  next => rfl
  next unknown => simp [entry] at unknown

theorem addNode_of_not_mem (h : name ∉ graph.nodes) :
    (graph.addNode name).1.names = graph.names.push name ∧
      (graph.addNode name).1.edges = graph.edges.push #[] ∧
      (graph.addNode name).2 = graph.size := by
  unfold addNode
  split
  next node entry => exact absurd (mem_nodes.mpr ⟨node, entry⟩) h
  next => exact ⟨rfl, rfl, rfl⟩

theorem index_addNode (graph : Graph) (name : String) :
    (graph.addNode name).1.index[name]? = some (graph.addNode name).2 := by
  unfold addNode
  split
  next node entry => exact entry
  next => simp

theorem nodes_addNode (graph : Graph) (name : String) :
    (graph.addNode name).1.nodes =
      if name ∈ graph.nodes then graph.nodes else graph.nodes ++ [name] := by
  split
  next h => rw [addNode_of_mem h]
  next h => simp [nodes, (addNode_of_not_mem h).1]

theorem mem_nodes_addNode :
    other ∈ (graph.addNode name).1.nodes ↔ other ∈ graph.nodes ∨ other = name := by
  rw [nodes_addNode]
  split
  next h => exact ⟨Or.inl, fun h' => h'.elim id fun same => same ▸ h⟩
  next => simp

theorem index_addNode_of_mem (h : graph.index[other]? = some node) :
    (graph.addNode name).1.index[other]? = some node := by
  unfold addNode
  split
  next => exact h
  next unknown =>
    have apart : name ≠ other := by rintro rfl; simp [h] at unknown
    simpa [Std.HashMap.getElem?_insert, apart] using h

theorem nameOf_addNode (h : node < graph.size) :
    (graph.addNode name).1.nameOf node = graph.nameOf node :=
  nameOf_eq_of_index (index_addNode_of_mem (index_nameOf h))

theorem successors_addNode (graph : Graph) (name : String) (node : Nat) :
    (graph.addNode name).1.successors node = graph.successors node := by
  by_cases h : name ∈ graph.nodes
  · rw [addNode_of_mem h]
  · simp only [successors, (addNode_of_not_mem h).2.1, Array.getD_eq_getD_getElem?,
      Array.getElem?_push]
    split
    next same => simp [same]
    next => rfl

@[simp] theorem dependencies_addNode (graph : Graph) (name other : String) :
    (graph.addNode name).1.dependencies other = graph.dependencies other := by
  by_cases known : other ∈ graph.nodes
  · obtain ⟨node, entry⟩ := mem_nodes.mp known
    rw [dependencies_of_index entry, dependencies_of_index (index_addNode_of_mem entry),
      successors_addNode]
    exact List.map_congr_left fun next h => nameOf_addNode (successors_lt h)
  · rw [dependencies_eq_nil known]
    by_cases same : other = name
    · subst same
      rw [dependencies_of_index (index_addNode graph other), successors_addNode,
        (addNode_of_not_mem known).2.2, successors_eq_nil (Nat.le_refl graph.size)]
      rfl
    · apply dependencies_eq_nil
      simp [mem_nodes_addNode, known, same]

theorem successors_addEdge {source target : Nat} (bound : source < graph.size)
    (h : target < graph.names.size) (node : Nat) :
    (graph.addEdge source target h).successors node =
      if node = source then graph.successors node ++ [target] else graph.successors node := by
  have inside : source < graph.edges.size := graph.edges_size ▸ bound
  simp only [successors, addEdge, Array.getD_eq_getD_getElem?, Array.getElem?_modify]
  split
  next same =>
    subst same
    simp [inside]
  next apart => simp [Ne.symm apart]

theorem dependencies_addEdge {dependent dependency : String} {source target : Nat}
    (hs : graph.index[dependent]? = some source) (ht : graph.index[dependency]? = some target)
    (h : target < graph.names.size) (name : String) :
    (graph.addEdge source target h).dependencies name =
      if name = dependent then graph.dependencies name ++ [dependency]
      else graph.dependencies name := by
  by_cases known : name ∈ graph.nodes
  · obtain ⟨node, entry⟩ := mem_nodes.mp known
    have grown : (graph.addEdge source target h).index[name]? = some node := entry
    rw [dependencies_of_index grown, successors_addEdge (index_lt hs), dependencies_of_index entry]
    by_cases same : name = dependent
    · subst same
      cases hs.symm.trans entry
      simp only [if_true, List.map_append, List.map_cons, List.map_nil]
      exact congrArg (_ ++ [·]) (nameOf_eq_of_index ht)
    · have apart : node ≠ source := by
        rintro rfl
        exact same ((nameOf_eq_of_index entry).symm.trans (nameOf_eq_of_index hs))
      rw [if_neg apart, if_neg same]
      rfl
  · have unknown : name ∉ (graph.addEdge source target h).nodes := known
    have apart : name ≠ dependent := by
      rintro rfl
      exact known (mem_nodes.mpr ⟨_, hs⟩)
    rw [dependencies_eq_nil unknown, if_neg apart, dependencies_eq_nil known]

theorem nodes_addDependency (graph : Graph) (dependent dependency : String) :
    (graph.addDependency dependent dependency).nodes =
      ((graph.addNode dependent).1.addNode dependency).1.nodes := rfl

theorem mem_nodes_addDependency {dependent dependency : String} :
    name ∈ (graph.addDependency dependent dependency).nodes ↔
      name ∈ graph.nodes ∨ name = dependent ∨ name = dependency := by
  rw [nodes_addDependency, mem_nodes_addNode, mem_nodes_addNode, or_assoc]

theorem dependencies_addDependency (graph : Graph) (dependent dependency name : String) :
    (graph.addDependency dependent dependency).dependencies name =
      if name = dependent then graph.dependencies name ++ [dependency]
      else graph.dependencies name := by
  have source := index_addNode graph dependent
  have target := index_addNode (graph.addNode dependent).1 dependency
  have grown := dependencies_addEdge (index_addNode_of_mem source) target (index_lt target) name
  rw [dependencies_addNode, dependencies_addNode] at grown
  exact grown

/-- A call that makes a graph grow. -/
inductive Call where
  | node (name : String)
  | dependency (dependent dependency : String)

namespace Call

def names : Call → List String
  | .node name => [name]
  | .dependency dependent target => [dependent, target]

/-- The dependency that a call gives to a name. -/
def gives (name : String) : Call → Option String
  | .node _ => none
  | .dependency dependent target => if dependent = name then some target else none

end Call

def call (graph : Graph) : Call → Graph
  | .node name => (graph.addNode name).1
  | .dependency dependent dependency => graph.addDependency dependent dependency

def after (calls : List Call) : Graph :=
  calls.foldl call empty

theorem mem_nodes_foldl_call (calls : List Call) (graph : Graph) :
    name ∈ (calls.foldl call graph).nodes ↔
      name ∈ graph.nodes ∨ ∃ call ∈ calls, name ∈ call.names := by
  induction calls generalizing graph with
  | nil => simp
  | cons first rest ih =>
    rw [List.foldl_cons, ih]
    cases first with
    | node known => simp [call, Call.names, mem_nodes_addNode, or_assoc]
    | dependency dependent dependency =>
      simp [call, Call.names, mem_nodes_addDependency, or_assoc]

theorem mem_nodes_after {calls : List Call} :
    name ∈ (after calls).nodes ↔ ∃ call ∈ calls, name ∈ call.names := by
  rw [after, mem_nodes_foldl_call]
  simp [empty, nodes]

theorem eraseDups_concat (seen : List String) (name : String) :
    (seen ++ [name]).eraseDups =
      if name ∈ seen then seen.eraseDups else seen.eraseDups ++ [name] := by
  rw [List.eraseDups_append, List.removeAll]
  split
  next member => simp [member]
  next absent => simp [absent, List.eraseDups_cons]

theorem eraseDups_of_nodup {names : List String} (h : names.Nodup) : names.eraseDups = names := by
  induction names with
  | nil => rfl
  | cons first rest ih =>
    obtain ⟨new, distinct⟩ := List.nodup_cons.mp h
    have others : rest.filter (fun other => !other == first) = rest := by
      refine List.filter_eq_self.mpr fun other member => ?_
      have apart : other ≠ first := fun same => new (same ▸ member)
      simp [apart]
    rw [List.eraseDups_cons, others, ih distinct]

/-- What is mentioned again leaves the order of the first mentions as it is. -/
theorem eraseDups_append_of_subset {names more : List String} (h : names.Nodup)
    (again : ∀ name ∈ more, name ∈ names) : (names ++ more).eraseDups = names := by
  have nothing : more.removeAll names = [] := by
    refine List.filter_eq_nil_iff.mpr fun name member => ?_
    simp [again name member]
  rw [List.eraseDups_append, nothing, eraseDups_of_nodup h]
  exact List.append_nil names

theorem nodes_addNode_of_eraseDups {seen : List String} (h : graph.nodes = seen.eraseDups)
    (name : String) : (graph.addNode name).1.nodes = (seen ++ [name]).eraseDups := by
  simp only [nodes_addNode, eraseDups_concat, h, List.mem_eraseDups]

theorem nodes_foldl_call (calls : List Call) {graph : Graph} {seen : List String}
    (h : graph.nodes = seen.eraseDups) :
    (calls.foldl call graph).nodes = (seen ++ calls.flatMap Call.names).eraseDups := by
  induction calls generalizing graph seen with
  | nil => simpa using h
  | cons first rest ih =>
    rw [List.foldl_cons, List.flatMap_cons, ← List.append_assoc]
    refine ih ?_
    cases first with
    | node name => exact nodes_addNode_of_eraseDups h name
    | dependency dependent dependency =>
      have source := nodes_addNode_of_eraseDups h dependent
      have both := nodes_addNode_of_eraseDups source dependency
      rwa [List.append_assoc] at both

/-- The nodes are listed in the order in which the calls first mention them. -/
theorem nodes_after (calls : List Call) :
    (after calls).nodes = (calls.flatMap Call.names).eraseDups := by
  have unseen : empty.nodes = ([] : List String).eraseDups := rfl
  exact nodes_foldl_call calls unseen

theorem dependencies_foldl_call (calls : List Call) (graph : Graph) (name : String) :
    (calls.foldl call graph).dependencies name =
      graph.dependencies name ++ calls.filterMap (Call.gives name) := by
  induction calls generalizing graph with
  | nil => simp
  | cons first rest ih =>
    rw [List.foldl_cons, ih]
    cases first with
    | node known => simp [call, List.filterMap_cons, Call.gives]
    | dependency dependent dependency =>
      by_cases same : name = dependent
      · simp [call, Call.gives, dependencies_addDependency, same]
      · simp [call, Call.gives, dependencies_addDependency, same, Ne.symm same]

theorem dependencies_after (calls : List Call) (name : String) :
    (after calls).dependencies name = calls.filterMap (Call.gives name) := by
  rw [after, dependencies_foldl_call]
  simp [empty, dependencies]

theorem mem_dependencies_after {calls : List Call} :
    other ∈ (after calls).dependencies name ↔ .dependency name other ∈ calls := by
  rw [dependencies_after, List.mem_filterMap]
  constructor
  · rintro ⟨made, member, given⟩
    cases made with
    | node _ => simp [Call.gives] at given
    | dependency dependent dependency =>
      obtain ⟨rfl, rfl⟩ : dependent = name ∧ dependency = other := by
        simpa [Call.gives] using given
      exact member
  · intro member
    exact ⟨_, member, by simp [Call.gives]⟩

end Statline.Graph
