import Statline.Fault
import Statline.Graph.Basic

namespace Statline

inductive Mark where
  | unseen
  | active
  | finished
deriving DecidableEq, Inhabited

/-- A node that is being visited and the dependencies of it that are still to be followed. -/
structure Frame where
  node : Nat
  pending : List Nat

/-- A depth-first search on its way: the innermost frame and the node finished last come first. -/
structure Search where
  marks : Array Mark
  stack : List Frame
  finished : List Nat

namespace Search

def start (size : Nat) : Search :=
  ⟨Array.replicate size .unseen, [], []⟩

def mark (search : Search) (node : Nat) : Mark :=
  search.marks.getD node .finished

def enter (search : Search) (successors : Nat → List Nat) (node : Nat) : Search :=
  { search with
    marks := search.marks.setIfInBounds node .active
    stack := ⟨node, successors node⟩ :: search.stack }

/-- How many frames lie outside that of the node. -/
def depth? (stack : List Frame) (node : Nat) : Option Nat :=
  (stack.map (·.node)).reverse.idxOf? node

/-- The active nodes from the one met again to the innermost, closed by the former; all of them if
it is not on the stack. -/
def cyclePath (stack : List Frame) (again : Nat) : List Nat :=
  (stack.map (·.node)).reverse.drop ((depth? stack again).getD 0) ++ [again]

/-- Follows one dependency of the innermost frame, or finishes its node when none is left. Meeting
an active node again closes a cycle. -/
def step (search : Search) (successors : Nat → List Nat) : Except (List Nat) Search :=
  match search.stack with
  | [] => .ok search
  | ⟨node, []⟩ :: outer =>
    .ok ⟨search.marks.setIfInBounds node .finished, outer, node :: search.finished⟩
  | ⟨node, next :: later⟩ :: outer =>
    let search := { search with stack := ⟨node, later⟩ :: outer }
    match search.mark next with
    | .unseen => .ok (search.enter successors next)
    | .active => .error (cyclePath search.stack next)
    | .finished => .ok search

/-- Steps until the stack is empty. -/
def run (successors : Nat → List Nat) : Nat → Search → Except (List Nat) Search
  | 0, search => .ok search
  | budget + 1, search =>
    if search.stack.isEmpty then .ok search
    else do run successors budget (← search.step successors)

/-- Visits a root and all that can be reached from it, unless it was visited before. -/
def visit (successors : Nat → List Nat) (budget : Nat) (search : Search) (root : Nat) :
    Except (List Nat) Search :=
  match search.mark root with
  | .unseen => run successors budget (search.enter successors root)
  | _ => .ok search

end Search

namespace Graph

/-- One visit follows each edge once at most and finishes each node once at most. -/
def searchBudget (graph : Graph) : Nat :=
  graph.size + graph.edgeCount

def searchAll (graph : Graph) : Except (List Nat) Search :=
  let budget := graph.searchBudget
  (List.range graph.size).foldlM (Search.visit graph.successors budget) (Search.start graph.size)

/-- The nodes, each after all of its dependencies: roots are taken in the order of the nodes,
dependencies in the order in which they were added. -/
def order (graph : Graph) : Except Fault (List String) :=
  match graph.searchAll with
  | .ok search => .ok (search.finished.reverse.map graph.nameOf)
  | .error path => .error (.cycle (path.map graph.nameOf))

end Graph

end Statline
