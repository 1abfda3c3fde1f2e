import Statline.Proofs.Graph.Order

namespace Statline.Search

variable {successors : Nat → List Nat} {size : Nat} {search : Search}

/-- The states that a search goes through, whichever roots it visits and in whichever order. -/
inductive Passes (successors : Nat → List Nat) (size : Nat) : Search → Prop
  | start : Passes successors size (start size)
  | enter {search : Search} {root : Nat} :
      Passes successors size search → search.stack = [] → search.mark root = .unseen →
      Passes successors size (search.enter successors root)
  | step {search after : Search} :
      Passes successors size search → search.stack ≠ [] → search.step successors = .ok after →
      Passes successors size after

theorem Passes.valid (hb : ∀ node, ∀ next ∈ successors node, next < size)
    (h : Passes successors size search) : Valid successors size [] search := by
  induction h with
  | start => exact valid_start size
  | @enter search root _ hs unknown ih =>
    have ready : Valid successors size [root] search := { ih with nested := hs ▸ .nil }
    exact ready.enter unknown
  | step _ more moved ih => exact ih.step hb more moved

/-- A cycle is reported by one of the states that the search goes through. -/
theorem Visits.passes_of_error {roots path : List Nat}
    (h : Visits successors roots (start size) (.error path)) :
    ∃ last, Passes successors size last ∧ last.step successors = .error path :=
  h.keeps (fun _ _ more moved passes => passes.step more moved)
    (fun _ _ hs unknown passes => passes.enter hs unknown) rfl .start

end Statline.Search

namespace Statline.Graph

/-- A graph that is refused is refused for a path along the dependencies that were added, which
ends where it starts and otherwise names nothing twice. Whenever a search meets an active node
again, that node is on the stack, and the path is cut off there. -/
theorem cycle_after_calls (calls : List Call) :
    (∀ fault, (after calls).order = .error fault →
      ∃ search nodes path,
        Search.Passes (after calls).successors (after calls).size search ∧
        search.step (after calls).successors = .error nodes ∧
        path = nodes.map (after calls).nameOf ∧ fault = .cycle path ∧
        2 ≤ path.length ∧ path.head? = path.getLast? ∧ path.dropLast.Nodup ∧
        path.IsChain fun dependent dependency => .dependency dependent dependency ∈ calls) ∧
    ∀ search, Search.Passes (after calls).successors (after calls).size search →
      ∀ nodes, search.step (after calls).successors = .error nodes →
        ∃ node next later outer depth, search.stack = ⟨node, next :: later⟩ :: outer ∧
          search.mark next = .active ∧
          Search.depth? (⟨node, later⟩ :: outer) next = some depth ∧
          nodes = (outer.reverse.map (·.node) ++ [node]).drop depth ++ [next] := by
  constructor
  · intro fault h
    obtain ⟨nodes, met, rfl⟩ := order_eq_error h
    have visits := visits_searchAll (after calls)
    rw [met] at visits
    obtain ⟨search, passes, step⟩ := visits.passes_of_error
    obtain ⟨path, same, cycle⟩ := isCycle_of_order_error h
    obtain rfl : nodes.map (after calls).nameOf = path := by injection same
    refine ⟨search, nodes, _, passes, step, rfl, rfl, cycle.two_le_length,
      cycle.head?_eq_getLast?, cycle.nodup_dropLast, ?_⟩
    exact cycle.isChain.imp fun _ _ edge => dependsOn_after.mp edge
  · intro search passes nodes met
    have valid := passes.valid fun _ _ => successors_lt
    obtain ⟨node, next, later, outer, shape, active, rfl⟩ := Search.step_error_cases met
    obtain ⟨depth, hd⟩ := valid.exists_depth shape active
    exact ⟨node, next, later, outer, depth, shape, active, hd, by simp [Search.cyclePath, hd]⟩

end Statline.Graph
