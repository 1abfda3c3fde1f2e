import Statline.Proofs.Graph.Construction

namespace Statline

/-- A library's graph: labelled nodes that are known by their numbers, and edges between them. -/
structure EdgeStore (G : Type) where
  empty : G
  count : G → Nat
  label : G → Nat → Option String
  /-- The graph with one more node, and the number of that node. -/
  addNode : G → String → G × Nat
  addEdge : G → Nat → Nat → G
  /-- Where the edges of a node lead, the newest edge first. -/
  neighbours : G → Nat → List Nat

/-- What the library promises: a new node gets the next number, and the neighbours of a node are
yielded from its newest edge to its oldest. Edges are only added between nodes that are there. -/
structure EdgeStore.Lawful {G : Type} (store : EdgeStore G) : Prop where
  count_empty : store.count store.empty = 0
  number_addNode : ∀ held name, (store.addNode held name).2 = store.count held
  count_addNode : ∀ held name, store.count (store.addNode held name).1 = store.count held + 1
  label_addNode : ∀ held name node, node ≤ store.count held →
    store.label (store.addNode held name).1 node =
      if node = store.count held then some name else store.label held node
  neighbours_addNode : ∀ held name node, node ≤ store.count held →
    store.neighbours (store.addNode held name).1 node =
      if node = store.count held then [] else store.neighbours held node
  count_addEdge : ∀ held source target, source < store.count held → target < store.count held →
    store.count (store.addEdge held source target) = store.count held
  label_addEdge : ∀ held source target, source < store.count held → target < store.count held →
    ∀ node, store.label (store.addEdge held source target) node = store.label held node
  neighbours_addEdge : ∀ held source target, source < store.count held →
    target < store.count held → ∀ node < store.count held,
      store.neighbours (store.addEdge held source target) node =
        if node = source then target :: store.neighbours held node
        else store.neighbours held node

/-- A graph that keeps the number of each name beside a library's graph. -/
structure Linked (G : Type) where
  held : G
  index : Std.HashMap String Nat

namespace Linked

open Statline.Graph (Call)

variable {G : Type} (store : EdgeStore G)

def empty : Linked G := ⟨store.empty, {}⟩

/-- The graph with a node for the name, and the number of that node. -/
def addNode (linked : Linked G) (name : String) : Linked G × Nat :=
  match linked.index[name]? with
  | some node => (linked, node)
  | none =>
    let added := store.addNode linked.held name
    (⟨added.1, linked.index.insert name added.2⟩, added.2)

def addEdge (linked : Linked G) (source target : Nat) : Linked G :=
  { linked with held := store.addEdge linked.held source target }

def addDependency (linked : Linked G) (dependent dependency : String) : Linked G :=
  let source := linked.addNode store dependent
  let target := source.1.addNode store dependency
  target.1.addEdge store source.2 target.2

def size (linked : Linked G) : Nat :=
  store.count linked.held

def contains (linked : Linked G) (name : String) : Bool :=
  linked.index.contains name

/-- None if a node is asked for that is not there. -/
def nodes (linked : Linked G) : Option (List String) :=
  (List.range (linked.size store)).mapM (store.label linked.held)

/-- The neighbours from the oldest edge to the newest; none if one of them is not there. -/
def dependencies (linked : Linked G) (name : String) : Option (List String) :=
  match linked.index[name]? with
  | some node => (store.neighbours linked.held node).reverse.mapM (store.label linked.held)
  | none => some []

def call (linked : Linked G) : Call → Linked G
  | .node name => (linked.addNode store name).1
  | .dependency dependent dependency => linked.addDependency store dependent dependency

def after (calls : List Call) : Linked G :=
  calls.foldl (call store) (empty store)

/-- The number with which a call that adds a node is answered. -/
def answer (linked : Linked G) : Call → Option Nat
  | .node name => some (linked.addNode store name).2
  | .dependency _ _ => none

def answers (linked : Linked G) : List Call → List (Option Nat)
  | [] => []
  | made :: rest => linked.answer store made :: (linked.call store made).answers rest

end Linked

namespace Graph

variable {graph : Graph} {name : String} {node : Nat}

def Call.asks? : Call → Option String
  | .node name => some name
  | .dependency _ _ => none

/-- The number with which a call that adds a node is answered. -/
def answer (graph : Graph) : Call → Option Nat
  | .node name => some (graph.addNode name).2
  | .dependency _ _ => none

def answers (graph : Graph) : List Call → List (Option Nat)
  | [] => []
  | made :: rest => graph.answer made :: (graph.call made).answers rest

theorem nodup_nodes (graph : Graph) : graph.nodes.Nodup := by
  rw [nodes_eq_map_range]
  refine List.nodup_range.map_on fun first hf second hs same => ?_
  exact nameOf_injOn (List.mem_range.mp hf) (List.mem_range.mp hs) same

theorem length_nodes (graph : Graph) : graph.nodes.length = graph.size := by
  simp [nodes, size]

theorem idxOf_nodes (h : graph.index[name]? = some node) : graph.nodes.idxOf name = node := by
  have stands : graph.nodes[node]? = some name := by
    rw [nodes, Array.getElem?_toList]
    exact (graph.indexed name node).mp h
  obtain ⟨bound, rfl⟩ := List.getElem?_eq_some_iff.mp stands
  exact graph.nodup_nodes.idxOf_getElem node bound

theorem index_addNode_of_new (h : graph.index[name]? = none) :
    (graph.addNode name).1.index = graph.index.insert name graph.size ∧
      (graph.addNode name).2 = graph.size := by
  unfold addNode
  split
  next known => simp [h] at known
  next => exact ⟨rfl, rfl⟩

/-- No call takes a number away from a name. -/
theorem index_foldl_call (calls : List Call) (h : graph.index[name]? = some node) :
    (calls.foldl call graph).index[name]? = some node := by
  induction calls generalizing graph with
  | nil => exact h
  | cons made rest ih =>
    cases made with
    | node known => exact ih (index_addNode_of_mem h)
    | dependency dependent dependency =>
      exact ih (index_addNode_of_mem (index_addNode_of_mem h))

/-- A name is answered with its place among the nodes, those that are still to come included. -/
theorem answers_eq (calls : List Call) (graph : Graph) :
    graph.answers calls =
      calls.map fun made => made.asks?.map (calls.foldl call graph).nodes.idxOf := by
  induction calls generalizing graph with
  | nil => rfl
  | cons made rest ih =>
    rw [answers, ih, List.map_cons, List.foldl_cons]
    cases made with
    | node name =>
      have stands := index_foldl_call rest (index_addNode graph name)
      exact congrArg (some · :: _) (idxOf_nodes stands).symm
    | dependency dependent dependency => rfl

end Graph

namespace Linked

variable {G : Type} {store : EdgeStore G} {linked : Linked G} {graph : Graph} {name : String}
  {node : Nat}

/-- If every lookup succeeds, so do all of them. -/
theorem mapM_eq_some {α β : Type} {find : α → Option β} {value : α → β} {items : List α}
    (h : ∀ item ∈ items, find item = some (value item)) :
    items.mapM find = some (items.map value) := by
  induction items with
  | nil => rfl
  | cons item rest ih =>
    obtain ⟨first, others⟩ := List.forall_mem_cons.mp h
    rw [List.mapM_cons, first, ih others]
    rfl

/-- The library holds the nodes and edges of the graph, each node's edges the other way round. -/
structure Mirrors (store : EdgeStore G) (linked : Linked G) (graph : Graph) : Prop where
  index : linked.index = graph.index
  size : linked.size store = graph.size
  label : ∀ node < graph.size, store.label linked.held node = some (graph.nameOf node)
  edges : ∀ node < graph.size, (store.neighbours linked.held node).reverse = graph.successors node

theorem mirrors_empty (lawful : store.Lawful) : Mirrors store (empty store) Graph.empty where
  index := rfl
  size := lawful.count_empty
  label := nofun
  edges := nofun

namespace Mirrors

theorem addNode_of_known (h : Mirrors store linked graph)
    (known : graph.index[name]? = some node) :
    Mirrors store (linked.addNode store name).1 (graph.addNode name).1 ∧
      (linked.addNode store name).2 = (graph.addNode name).2 := by
  have same : linked.addNode store name = (linked, node) := by
    simp [Linked.addNode, h.index, known]
  have unchanged : (graph.addNode name).1 = graph :=
    Graph.addNode_of_mem (Graph.mem_nodes.mpr ⟨node, known⟩)
  have number := Graph.index_addNode graph name
  rw [unchanged, known] at number
  rw [same, unchanged]
  exact ⟨h, Option.some.inj number⟩

theorem addNode_of_new (lawful : store.Lawful) (h : Mirrors store linked graph)
    (new : graph.index[name]? = none) :
    Mirrors store (linked.addNode store name).1 (graph.addNode name).1 ∧
      (linked.addNode store name).2 = (graph.addNode name).2 := by
  have held : store.count linked.held = graph.size := h.size
  have same : linked.addNode store name =
      (⟨(store.addNode linked.held name).1, linked.index.insert name graph.size⟩, graph.size) := by
    simp [Linked.addNode, h.index, new, lawful.number_addNode, held]
  obtain ⟨index, number⟩ := Graph.index_addNode_of_new new
  have grown : (graph.addNode name).1.size = graph.size + 1 := by
    have absent : name ∉ graph.nodes := by simp [Graph.mem_nodes, new]
    simp [Graph.size, (Graph.addNode_of_not_mem absent).1]
  rw [same, number]
  refine ⟨⟨?_, ?_, ?_, ?_⟩, rfl⟩
  · rw [index, h.index]
  · rw [grown, ← held]
    exact lawful.count_addNode linked.held name
  · intro node bound
    rw [lawful.label_addNode linked.held name node (by omega), held]
    split
    next last => rw [last, ← number, Graph.nameOf_eq_of_index (Graph.index_addNode graph name)]
    next before =>
      have earlier : node < graph.size := by omega
      rw [h.label node earlier, Graph.nameOf_addNode earlier]
  · intro node bound
    rw [lawful.neighbours_addNode linked.held name node (by omega), held,
      Graph.successors_addNode]
    split
    next last =>
      rw [last, Graph.successors_eq_nil (Nat.le_refl graph.size)]
      rfl
    next before => exact h.edges node (by omega)

theorem addNode (lawful : store.Lawful) (h : Mirrors store linked graph) (name : String) :
    Mirrors store (linked.addNode store name).1 (graph.addNode name).1 ∧
      (linked.addNode store name).2 = (graph.addNode name).2 := by
  cases found : graph.index[name]? with
  | some node => exact h.addNode_of_known found
  | none => exact h.addNode_of_new lawful found

theorem addEdge (lawful : store.Lawful) (h : Mirrors store linked graph) {source target : Nat}
    (hs : source < graph.size) (ht : target < graph.names.size) :
    Mirrors store (linked.addEdge store source target) (graph.addEdge source target ht) := by
  have held : store.count linked.held = graph.size := h.size
  have hs' : source < store.count linked.held := held ▸ hs
  have ht' : target < store.count linked.held := held ▸ ht
  refine ⟨h.index, ?_, ?_, ?_⟩
  · exact (lawful.count_addEdge linked.held source target hs' ht').trans held
  · intro node bound
    exact (lawful.label_addEdge linked.held source target hs' ht' node).trans (h.label node bound)
  · intro node bound
    have newest := lawful.neighbours_addEdge linked.held source target hs' ht' node (held ▸ bound)
    have older : (store.neighbours linked.held node).reverse = graph.successors node :=
      h.edges node bound
    rw [Graph.successors_addEdge hs, Linked.addEdge, newest]
    split
    next => rw [List.reverse_cons, older]
    next => exact older

theorem addDependency (lawful : store.Lawful) (h : Mirrors store linked graph)
    (dependent dependency : String) :
    Mirrors store (linked.addDependency store dependent dependency)
      (graph.addDependency dependent dependency) := by
  obtain ⟨first, source⟩ := h.addNode lawful dependent
  obtain ⟨second, target⟩ := first.addNode lawful dependency
  have stands : ((graph.addNode dependent).1.addNode dependency).1.index[dependent]? =
      some (graph.addNode dependent).2 :=
    Graph.index_addNode_of_mem (Graph.index_addNode graph dependent)
  rw [Linked.addDependency, source, target]
  exact second.addEdge lawful (Graph.index_lt stands)
    (Graph.addNode_lt (graph.addNode dependent).1 dependency)

theorem call (lawful : store.Lawful) (h : Mirrors store linked graph) (made : Graph.Call) :
    Mirrors store (linked.call store made) (graph.call made) := by
  cases made with
  | node name => exact (h.addNode lawful name).1
  | dependency dependent dependency => exact h.addDependency lawful dependent dependency

theorem foldl (lawful : store.Lawful) (h : Mirrors store linked graph)
    (calls : List Graph.Call) :
    Mirrors store (calls.foldl (Linked.call store) linked) (calls.foldl Graph.call graph) := by
  induction calls generalizing linked graph with
  | nil => exact h
  | cons made rest ih => exact ih (h.call lawful made)

theorem answers (lawful : store.Lawful) (h : Mirrors store linked graph)
    (calls : List Graph.Call) : linked.answers store calls = graph.answers calls := by
  induction calls generalizing linked graph with
  | nil => rfl
  | cons made rest ih =>
    rw [Linked.answers, Graph.answers, ih (h.call lawful made)]
    cases made with
    | node name => exact congrArg (some · :: _) (h.addNode lawful name).2
    | dependency dependent dependency => rfl

theorem contains (h : Mirrors store linked graph) (name : String) :
    linked.contains name = graph.contains name := by
  rw [Linked.contains, h.index, Graph.contains]

theorem nodes (h : Mirrors store linked graph) : linked.nodes store = some graph.nodes := by
  rw [Linked.nodes, h.size, Graph.nodes_eq_map_range]
  exact mapM_eq_some fun node bound => h.label node (List.mem_range.mp bound)

theorem dependencies (h : Mirrors store linked graph) (name : String) :
    linked.dependencies store name = some (graph.dependencies name) := by
  rw [Linked.dependencies, h.index]
  split
  next node found =>
    rw [h.edges node (Graph.index_lt found), Graph.dependencies_of_index found]
    exact mapM_eq_some fun next follows => h.label next (Graph.successors_lt follows)
  next unknown => rw [Graph.dependencies, unknown]

end Mirrors

end Linked

namespace Graph

open Statline.Linked (Mirrors)

/-- Whatever nodes and edges were added to a new graph: each name that was mentioned is one node,
the nodes stand in the order of first mention, and each call that adds a node is answered with the
place of its name in that order. The dependencies of a name are those that were given to it, in the
order of the calls and as often as they were given. All this holds as well of a graph that leaves
nodes and edges to a library. -/
theorem replays_calls {G : Type} {store : EdgeStore G} (lawful : store.Lawful)
    (calls : List Call) :
    let graph := after calls
    let linked := Linked.after store calls
    let mentioned := (calls.flatMap Call.names).eraseDups
    let numbers := calls.map fun made => made.asks?.map mentioned.idxOf
    mentioned.Nodup ∧ (∀ name, name ∈ mentioned ↔ ∃ made ∈ calls, name ∈ made.names) ∧
    (graph.nodes = mentioned ∧ linked.nodes store = some mentioned) ∧
    (graph.size = mentioned.length ∧ linked.size store = mentioned.length) ∧
    (∀ name, (graph.contains name = true ↔ name ∈ mentioned) ∧
      (linked.contains name = true ↔ name ∈ mentioned)) ∧
    (empty.answers calls = numbers ∧ (Linked.empty store).answers store calls = numbers) ∧
    ∀ name, graph.dependencies name = calls.filterMap (Call.gives name) ∧
      linked.dependencies store name = some (calls.filterMap (Call.gives name)) := by
  intro graph linked mentioned numbers
  have mirrors : Mirrors store linked graph := (Linked.mirrors_empty lawful).foldl lawful calls
  have nodes : graph.nodes = mentioned := nodes_after calls
  have size : graph.size = mentioned.length := by rw [← nodes, length_nodes]
  have contains : ∀ name, graph.contains name = true ↔ name ∈ mentioned := by
    intro name
    rw [contains_eq_true, nodes]
  have answered : empty.answers calls = numbers := by
    rw [answers_eq calls empty]
    exact congrArg (fun nodes => calls.map fun made => made.asks?.map (List.idxOf · nodes)) nodes
  have dependencies := fun name => dependencies_after calls name
  refine ⟨nodes ▸ graph.nodup_nodes, fun name => ?_, ⟨nodes, ?_⟩, ⟨size, ?_⟩, fun name => ?_,
    ⟨answered, ?_⟩, fun name => ⟨dependencies name, ?_⟩⟩
  · rw [← nodes]
    exact mem_nodes_after
  · rw [mirrors.nodes, nodes]
  · exact mirrors.size.trans size
  · rw [mirrors.contains]
    exact ⟨contains name, contains name⟩
  · rw [(Linked.mirrors_empty lawful).answers lawful, answered]
  · rw [mirrors.dependencies, dependencies]

end Graph

/-- A store that keeps the edges of each node on a stack. -/
def stacked : EdgeStore (Array (String × List Nat)) where
  empty := #[]
  count held := held.size
  label held node := held[node]?.map (·.1)
  addNode held name := (held.push (name, []), held.size)
  addEdge held source target := held.modify source fun entry => (entry.1, target :: entry.2)
  neighbours held node := (held[node]?.map (·.2)).getD []

theorem lawful_stacked : stacked.Lawful where
  count_empty := rfl
  number_addNode _ _ := rfl
  count_addNode _ _ := by simp [stacked]
  label_addNode held name node _ := by
    by_cases last : node = held.size <;> simp [stacked, Array.getElem?_push, last]
  neighbours_addNode held name node _ := by
    by_cases last : node = held.size <;> simp [stacked, Array.getElem?_push, last]
  count_addEdge _ _ _ _ _ := by simp [stacked]
  label_addEdge held source target _ _ node := by
    by_cases same : source = node
    · simp [stacked, Array.getElem?_modify, same, Function.comp_def]
    · simp [stacked, Array.getElem?_modify, same]
  neighbours_addEdge held source target hs _ node _ := by
    have bound : source < held.size := hs
    simp only [stacked, Array.getElem?_modify]
    by_cases same : source = node
    · subst same
      simp [bound]
    · simp [same, Ne.symm same]

namespace Graph

/-- Both ends of an edge may be new, known, or the same name; edges may be repeated. -/
theorem replays_crossing_calls :
    let calls : List Call := [.dependency "attack" "strength", .node "speed",
      .dependency "attack" "attack", .dependency "strength" "speed", .node "attack",
      .dependency "attack" "strength", .node "speed"]
    let linked := Linked.after stacked calls
    stacked.Lawful ∧ linked.nodes stacked = some ["attack", "strength", "speed"] ∧
      linked.size stacked = 3 ∧
      (Linked.empty stacked).answers stacked calls =
        [none, some 2, none, none, some 0, none, some 2] ∧
      linked.dependencies stacked "attack" = some ["strength", "attack", "strength"] := by
  intro calls linked
  obtain ⟨_, _, nodes, size, _, answers, dependencies⟩ := replays_calls lawful_stacked calls
  exact ⟨lawful_stacked, nodes.2, size.2, answers.2, (dependencies "attack").2⟩

end Graph

end Statline
