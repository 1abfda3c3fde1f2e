import Statline.Graph.Basic

namespace Statline

/-- The nodes found so far and those still to be looked at. -/
structure Sweep where
  found : Array Bool
  waiting : List Nat

namespace Sweep

def has (sweep : Sweep) (node : Nat) : Bool :=
  sweep.found.getD node true

def step (sweep : Sweep) (successors : Nat → List Nat) : Sweep :=
  match sweep.waiting with
  | [] => sweep
  | node :: rest =>
    if sweep.has node then { sweep with waiting := rest }
    else
      let found := sweep.found.setIfInBounds node true
      ⟨found, (successors node).filter (fun next => !found.getD next true) ++ rest⟩

def run (successors : Nat → List Nat) : Nat → Sweep → Sweep
  | 0, sweep => sweep
  | budget + 1, sweep =>
    if sweep.waiting.isEmpty then sweep else run successors budget (sweep.step successors)

end Sweep

namespace Graph

/-- For each node, whether it can be reached from the targets along dependencies. -/
def reachable (graph : Graph) (targets : List String) : Array Bool :=
  let roots := targets.filterMap (graph.index[·]?)
  let budget := roots.length + graph.edgeCount
  (Sweep.run graph.successors budget ⟨Array.replicate graph.size false, roots⟩).found

/-- The part of the graph that the targets depend on, themselves included; targets that the graph
does not know are left out. -/
def closure (graph : Graph) (targets : List String) : Graph :=
  let reached := graph.reachable targets
  let kept := (List.range graph.size).filter fun node => reached.getD node false
  let withNodes := kept.foldl (fun part node => (part.addNode (graph.nameOf node)).1) empty
  kept.foldl
    (fun part node =>
      (graph.successors node).foldl
        (fun part next => part.addDependency (graph.nameOf node) (graph.nameOf next)) part)
    withNodes

end Graph

end Statline
