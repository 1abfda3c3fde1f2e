import Std.Data.HashMap

namespace Statline

/-- Which names depend on which. Nodes are numbered in the order in which they were first named,
and each node keeps its dependencies in the order in which they were added, repetitions included. -/
structure Graph where
  names : Array String
  index : Std.HashMap String Nat
  edges : Array (Array Nat)
  indexed : ∀ (name : String) (node : Nat), index[name]? = some node ↔ names[node]? = some name
  edges_size : edges.size = names.size
  edges_lt : ∀ targets ∈ edges, ∀ target ∈ targets, target < names.size

namespace Graph

def empty : Graph where
  names := #[]
  index := {}
  edges := #[]
  indexed := by simp
  edges_size := rfl
  edges_lt := by simp

instance : Inhabited Graph := ⟨empty⟩

theorem indexed_push {graph : Graph} {name : String} (unknown : graph.index[name]? = none)
    (other : String) (node : Nat) :
    (graph.index.insert name graph.names.size)[other]? = some node ↔
      (graph.names.push name)[node]? = some other := by
  have known := graph.indexed other node
  rw [Std.HashMap.getElem?_insert, Array.getElem?_push]
  by_cases same : name = other
  · subst same
    by_cases last : node = graph.names.size
    · simp [last]
    · simp_all [eq_comm]
  · by_cases last : node = graph.names.size <;> simp_all

/-- The graph with a node for the name, and the number of that node. -/
def addNode (graph : Graph) (name : String) : Graph × Nat :=
  match unknown : graph.index[name]? with
  | some node => (graph, node)
  | none =>
    ({ names := graph.names.push name
       index := graph.index.insert name graph.names.size
       edges := graph.edges.push #[]
       indexed := indexed_push unknown
       edges_size := by simp [graph.edges_size]
       edges_lt := by
        intro targets member target pending
        rcases Array.mem_push.mp member with member | rfl
        · have bound := graph.edges_lt targets member target pending
          rw [Array.size_push]
          omega
        · simp at pending }, graph.names.size)

theorem addNode_lt (graph : Graph) (name : String) :
    (graph.addNode name).2 < (graph.addNode name).1.names.size := by
  unfold addNode
  split
  next node known => exact (Array.getElem?_eq_some_iff.mp ((graph.indexed name node).mp known)).1
  next => simp

theorem edges_lt_modify (graph : Graph) (source : Nat) {target : Nat}
    (h : target < graph.names.size) :
    ∀ targets ∈ graph.edges.modify source (·.push target), ∀ next ∈ targets,
      next < graph.names.size := by
  intro targets member next pending
  obtain ⟨i, hi, rfl⟩ := Array.mem_iff_getElem.mp member
  rw [Array.size_modify] at hi
  have old := graph.edges_lt graph.edges[i] (Array.getElem_mem hi)
  rw [Array.getElem_modify] at pending
  split at pending
  next =>
    rcases Array.mem_push.mp pending with pending | rfl
    · exact old next pending
    · exact h
  next => exact old next pending

def addEdge (graph : Graph) (source target : Nat) (h : target < graph.names.size) : Graph :=
  { graph with
    edges := graph.edges.modify source (·.push target)
    edges_size := by rw [Array.size_modify, graph.edges_size]
    edges_lt := graph.edges_lt_modify source h }

def addDependency (graph : Graph) (dependent dependency : String) : Graph :=
  let source := graph.addNode dependent
  let target := source.1.addNode dependency
  target.1.addEdge source.2 target.2 (addNode_lt source.1 dependency)

def size (graph : Graph) : Nat :=
  graph.names.size

def nodes (graph : Graph) : List String :=
  graph.names.toList

def contains (graph : Graph) (name : String) : Bool :=
  graph.index.contains name

def nameOf (graph : Graph) (node : Nat) : String :=
  graph.names.getD node ""

def successors (graph : Graph) (node : Nat) : List Nat :=
  (graph.edges.getD node #[]).toList

def edgeCount (graph : Graph) : Nat :=
  graph.edges.foldl (fun count targets => count + targets.size) 0

def dependencies (graph : Graph) (name : String) : List String :=
  match graph.index[name]? with
  | some node => (graph.successors node).map graph.nameOf
  | none => []

/-- Every node with its dependencies. -/
def adjacency (graph : Graph) : List (String × List String) :=
  (List.range graph.size).map fun node =>
    (graph.nameOf node, (graph.successors node).map graph.nameOf)

end Graph

end Statline
