import Mathlib.Algebra.BigOperators.Fin
import Mathlib.Algebra.Order.BigOperators.Group.Finset
import Statline.Graph.Order

namespace Statline.Search

variable {successors : Nat → List Nat}

/-- Where the loop of a visit ends when nothing limits how long it runs. -/
inductive Ends (successors : Nat → List Nat) : Search → Except (List Nat) Search → Prop
  | done {search : Search} : search.stack = [] → Ends successors search (.ok search)
  | cycle {search : Search} {path : List Nat} :
      search.step successors = .error path → Ends successors search (.error path)
  | next {search after : Search} {result : Except (List Nat) Search} :
      search.stack ≠ [] → search.step successors = .ok after → Ends successors after result →
      Ends successors search result

/-- Where visits of the roots one after another end; the first cycle ends them all. -/
inductive Visits (successors : Nat → List Nat) :
    List Nat → Search → Except (List Nat) Search → Prop
  | done {search : Search} : Visits successors [] search (.ok search)
  | skip {search : Search} {root : Nat} {roots : List Nat} {result : Except (List Nat) Search} :
      search.mark root ≠ .unseen → Visits successors roots search result →
      Visits successors (root :: roots) search result
  | visit {search after : Search} {root : Nat} {roots : List Nat}
      {result : Except (List Nat) Search} :
      search.mark root = .unseen → Ends successors (search.enter successors root) (.ok after) →
      Visits successors roots after result → Visits successors (root :: roots) search result
  | cycle {search : Search} {root : Nat} {roots path : List Nat} :
      search.mark root = .unseen → Ends successors (search.enter successors root) (.error path) →
      Visits successors (root :: roots) search (.error path)

def unseen (search : Search) : Finset Nat :=
  (Finset.range search.marks.size).filter (search.mark · = .unseen)

/-- The steps that a search can still take: one for each pending dependency and one for each node
that is not finished. -/
def weight (successors : Nat → List Nat) (search : Search) : Nat :=
  (search.stack.map fun frame => frame.pending.length + 1).sum +
    ∑ node ∈ search.unseen, ((successors node).length + 1)

theorem lt_of_mark_ne_finished {search : Search} {node : Nat} (h : search.mark node ≠ .finished) :
    node < search.marks.size := by
  by_contra outside
  exact h (by simp [mark, Nat.le_of_not_lt outside])

theorem mem_unseen {search : Search} {node : Nat} :
    node ∈ search.unseen ↔ search.mark node = .unseen := by
  simp only [unseen, Finset.mem_filter, Finset.mem_range, and_iff_right_iff_imp]
  intro h
  exact lt_of_mark_ne_finished (by simp [h])

theorem getD_setIfInBounds {α : Type} {marks : Array α} {node : Nat} (bound : node < marks.size)
    (new fallback : α) (other : Nat) :
    (marks.setIfInBounds node new).getD other fallback =
      if other = node then new else marks.getD other fallback := by
  simp only [Array.getD_eq_getD_getElem?, Array.getElem?_setIfInBounds]
  by_cases same : node = other
  · simp [same ▸ bound, same]
  · simp [same, Ne.symm same]

theorem mark_enter {search : Search} {node : Nat} (h : search.mark node = .unseen) (other : Nat) :
    (search.enter successors node).mark other =
      if other = node then .active else search.mark other :=
  getD_setIfInBounds (lt_of_mark_ne_finished (by simp [h])) .active .finished other

theorem mark_finish {search : Search} {node : Nat} (bound : node < search.marks.size)
    (stack : List Frame) (finished : List Nat) (other : Nat) :
    mark ⟨search.marks.setIfInBounds node .finished, stack, finished⟩ other =
      if other = node then .finished else search.mark other :=
  getD_setIfInBounds bound .finished .finished other

theorem unseen_enter {search : Search} {node : Nat} (h : search.mark node = .unseen) :
    (search.enter successors node).unseen = search.unseen.erase node := by
  ext other
  rw [mem_unseen, mark_enter h, Finset.mem_erase, mem_unseen]
  split <;> simp_all

theorem unseen_finish (search : Search) (node : Nat) (stack : List Frame) (finished : List Nat) :
    unseen ⟨search.marks.setIfInBounds node .finished, stack, finished⟩ ⊆ search.unseen := by
  intro other h
  rw [mem_unseen] at h ⊢
  by_cases bound : node < search.marks.size
  · rw [mark_finish bound] at h
    split at h
    next => cases h
    next => exact h
  · simpa [mark, Array.setIfInBounds, bound] using h

theorem weight_enter {search : Search} {node : Nat} (h : search.mark node = .unseen) :
    (search.enter successors node).weight successors = search.weight successors := by
  have split := Finset.add_sum_erase search.unseen (fun node => (successors node).length + 1)
    (mem_unseen.mpr h)
  unfold weight
  rw [unseen_enter h]
  simp only [enter, List.map_cons, List.sum_cons]
  omega

/-- A step finishes the innermost node, enters a node that was not seen before, or passes over a
dependency that is finished already. -/
theorem step_ok_cases {search after : Search} (hs : search.stack ≠ [])
    (h : search.step successors = .ok after) :
    (∃ node outer, search.stack = ⟨node, []⟩ :: outer ∧
      after = ⟨search.marks.setIfInBounds node .finished, outer, node :: search.finished⟩) ∨
    (∃ node next later outer, search.stack = ⟨node, next :: later⟩ :: outer ∧
      search.mark next = .unseen ∧
      after = enter { search with stack := ⟨node, later⟩ :: outer } successors next) ∨
    (∃ node next later outer, search.stack = ⟨node, next :: later⟩ :: outer ∧
      search.mark next = .finished ∧ after = { search with stack := ⟨node, later⟩ :: outer }) := by
  obtain ⟨marks, stack, finished⟩ := search
  match stack with
  | [] => exact absurd rfl hs
  | ⟨node, []⟩ :: outer => exact .inl ⟨node, outer, rfl, (Except.ok.inj h).symm⟩
  | ⟨node, next :: later⟩ :: outer =>
    simp only [step] at h
    split at h
    next unknown =>
      exact .inr (.inl ⟨node, next, later, outer, rfl, unknown, (Except.ok.inj h).symm⟩)
    next => cases h
    next known => exact .inr (.inr ⟨node, next, later, outer, rfl, known, (Except.ok.inj h).symm⟩)

theorem step_error_cases {search : Search} {path : List Nat}
    (h : search.step successors = .error path) :
    ∃ node next later outer, search.stack = ⟨node, next :: later⟩ :: outer ∧
      search.mark next = .active ∧ path = cyclePath (⟨node, later⟩ :: outer) next := by
  obtain ⟨marks, stack, finished⟩ := search
  match stack with
  | [] => cases h
  | ⟨node, []⟩ :: outer => cases h
  | ⟨node, next :: later⟩ :: outer =>
    simp only [step] at h
    split at h
    next => cases h
    next known => exact ⟨node, next, later, outer, rfl, known, (Except.error.inj h).symm⟩
    next => cases h

theorem step_of_nil {search : Search} {node : Nat} {outer : List Frame}
    (shape : search.stack = ⟨node, []⟩ :: outer) :
    search.step successors =
      .ok ⟨search.marks.setIfInBounds node .finished, outer, node :: search.finished⟩ := by
  simp [step, shape]

theorem step_of_unseen {search : Search} {node next : Nat} {later : List Nat}
    {outer : List Frame} (shape : search.stack = ⟨node, next :: later⟩ :: outer)
    (unknown : search.mark next = .unseen) :
    search.step successors =
      .ok (enter { search with stack := ⟨node, later⟩ :: outer } successors next) := by
  have same : mark { search with stack := ⟨node, later⟩ :: outer } next = .unseen := unknown
  simp [step, shape, same]

theorem step_of_active {search : Search} {node next : Nat} {later : List Nat}
    {outer : List Frame} (shape : search.stack = ⟨node, next :: later⟩ :: outer)
    (known : search.mark next = .active) :
    search.step successors = .error (cyclePath (⟨node, later⟩ :: outer) next) := by
  have same : mark { search with stack := ⟨node, later⟩ :: outer } next = .active := known
  simp [step, shape, same]

theorem step_of_finished {search : Search} {node next : Nat} {later : List Nat}
    {outer : List Frame} (shape : search.stack = ⟨node, next :: later⟩ :: outer)
    (known : search.mark next = .finished) :
    search.step successors = .ok { search with stack := ⟨node, later⟩ :: outer } := by
  have same : mark { search with stack := ⟨node, later⟩ :: outer } next = .finished := known
  simp [step, shape, same]

theorem weight_step {search after : Search} (hs : search.stack ≠ [])
    (h : search.step successors = .ok after) :
    after.weight successors < search.weight successors := by
  have lighter {node next : Nat} {later : List Nat} {outer : List Frame}
      (shape : search.stack = ⟨node, next :: later⟩ :: outer) :
      weight successors { search with stack := ⟨node, later⟩ :: outer } <
        search.weight successors := by
    simp only [weight, shape, List.map_cons, List.sum_cons, List.length_cons]
    exact Nat.add_lt_add_right (by omega) _
  rcases step_ok_cases hs h with ⟨node, outer, shape, rfl⟩ |
    ⟨node, next, later, outer, shape, unknown, rfl⟩ | ⟨node, next, later, outer, shape, _, rfl⟩
  · have less := Finset.sum_le_sum_of_subset (f := fun node => (successors node).length + 1)
      (unseen_finish search node outer (node :: search.finished))
    simp only [weight, shape, List.map_cons, List.sum_cons, List.length_nil]
    omega
  · have known : mark { search with stack := ⟨node, later⟩ :: outer } next = .unseen := unknown
    rw [weight_enter known]
    exact lighter shape
  · exact lighter shape

theorem unseen_step {search after : Search} (hs : search.stack ≠ [])
    (h : search.step successors = .ok after) : after.unseen ⊆ search.unseen := by
  rcases step_ok_cases hs h with ⟨node, outer, _, rfl⟩ |
    ⟨node, next, later, outer, _, unknown, rfl⟩ | ⟨node, next, later, outer, _, _, rfl⟩
  · exact unseen_finish search node outer (node :: search.finished)
  · have known : mark { search with stack := ⟨node, later⟩ :: outer } next = .unseen := unknown
    rw [unseen_enter known]
    exact Finset.erase_subset _ _
  · exact Finset.Subset.refl _

theorem marks_size_step {search after : Search} (hs : search.stack ≠ [])
    (h : search.step successors = .ok after) : after.marks.size = search.marks.size := by
  rcases step_ok_cases hs h with ⟨node, outer, _, rfl⟩ | ⟨node, next, later, outer, _, _, rfl⟩ |
    ⟨node, next, later, outer, _, _, rfl⟩
  · simp
  · simp [enter]
  · rfl

/-- A budget that covers the weight of a search lets the loop run to its end. -/
theorem run_ends {budget : Nat} {search : Search} (h : search.weight successors ≤ budget) :
    Ends successors search (run successors budget search) := by
  induction budget generalizing search with
  | zero =>
    apply Ends.done
    cases hs : search.stack with
    | nil => rfl
    | cons frame outer => simp [weight, hs] at h
  | succ budget ih =>
    rw [run]
    split
    next hs => exact .done (List.isEmpty_iff.mp hs)
    next hs =>
      have more : search.stack ≠ [] := by simpa using hs
      cases moved : search.step successors with
      | error path => exact .cycle moved
      | ok after =>
        have less := weight_step more moved
        exact .next more moved (ih (by omega))

theorem Ends.stack_eq_nil {search after : Search} (h : Ends successors search (.ok after)) :
    after.stack = [] ∧ after.marks.size = search.marks.size := by
  generalize hr : (Except.ok after : Except (List Nat) Search) = result at h
  induction h with
  | done hs => cases hr; exact ⟨hs, rfl⟩
  | cycle _ => cases hr
  | next more moved _ ih =>
    obtain ⟨hs, hm⟩ := ih hr
    exact ⟨hs, hm.trans (marks_size_step more moved)⟩

theorem Ends.unique {search : Search} {first second : Except (List Nat) Search}
    (hf : Ends successors search first) (hs : Ends successors search second) :
    first = second := by
  induction hf with
  | done empty =>
    cases hs with
    | done _ => rfl
    | cycle met => simp [step, empty] at met
    | next more _ _ => exact absurd empty more
  | cycle met =>
    cases hs with
    | done empty => simp [step, empty] at met
    | cycle again => rw [met] at again; cases again; rfl
    | next _ moved _ => rw [met] at moved; cases moved
  | next more moved _ ih =>
    cases hs with
    | done empty => exact absurd empty more
    | cycle met => rw [met] at moved; cases moved
    | next _ again rest => rw [moved] at again; cases again; exact ih rest

theorem Visits.unique {search : Search} {roots : List Nat}
    {first second : Except (List Nat) Search} (hf : Visits successors roots search first)
    (hs : Visits successors roots search second) :
    first = second := by
  induction hf with
  | done => cases hs; rfl
  | skip known _ ih =>
    cases hs with
    | skip _ rest => exact ih rest
    | visit unknown _ _ => exact absurd unknown known
    | cycle unknown _ => exact absurd unknown known
  | visit unknown ends _ ih =>
    cases hs with
    | skip known _ => exact absurd unknown known
    | visit _ again rest => cases ends.unique again; exact ih rest
    | cycle _ again => cases ends.unique again
  | cycle unknown ends =>
    cases hs with
    | skip known _ => exact absurd unknown known
    | visit _ again _ => cases ends.unique again
    | cycle _ again => cases ends.unique again; rfl

theorem weight_le {search : Search} (hs : search.stack = []) :
    search.weight successors ≤
      ∑ node ∈ Finset.range search.marks.size, ((successors node).length + 1) := by
  simp only [weight, hs, List.map_nil, List.sum_nil, Nat.zero_add]
  exact Finset.sum_le_sum_of_subset (Finset.filter_subset _ _)

theorem visits_foldlM {size budget : Nat}
    (hb : ∑ node ∈ Finset.range size, ((successors node).length + 1) ≤ budget) (roots : List Nat)
    {search : Search} (hs : search.stack = []) (hm : search.marks.size = size) :
    Visits successors roots search (roots.foldlM (visit successors budget) search) := by
  induction roots generalizing search with
  | nil => exact .done
  | cons root roots ih =>
    rw [List.foldlM_cons]
    by_cases unknown : search.mark root = .unseen
    · have enough : (search.enter successors root).weight successors ≤ budget := by
        rw [weight_enter unknown]
        exact (weight_le hs).trans (hm ▸ hb)
      have ends := run_ends enough
      simp only [visit, unknown]
      cases result : run successors budget (search.enter successors root) with
      | error path => exact .cycle unknown (result ▸ ends)
      | ok after =>
        rw [result] at ends
        obtain ⟨empty, same⟩ := ends.stack_eq_nil
        exact .visit unknown ends (ih empty (same.trans (by simpa [enter] using hm)))
    · have skipped : visit successors budget search root = .ok search := by
        unfold visit
        split
        next h => exact absurd h unknown
        next => rfl
      rw [skipped]
      exact .skip unknown (ih hs hm)

end Statline.Search

namespace Statline.Graph

theorem edgeCount_eq (graph : Graph) :
    graph.edgeCount = ∑ node ∈ Finset.range graph.size, (graph.successors node).length := by
  have size : graph.size = graph.edges.toList.length := by simp [Graph.size, graph.edges_size]
  calc graph.edgeCount
      = (graph.edges.toList.map Array.size).sum := by
        rw [edgeCount, ← Array.foldl_toList, List.sum_eq_foldl_nat, List.foldl_map]
    _ = ∑ node : Fin graph.edges.toList.length, (graph.edges.toList[node.1]).size :=
        (Fin.sum_univ_fun_getElem _ _).symm
    _ = ∑ node : Fin graph.edges.toList.length, (graph.successors node.1).length := by
        refine Finset.sum_congr rfl fun node _ => ?_
        have bound : node.1 < graph.edges.size := node.2
        simp [successors, bound]
    _ = ∑ node ∈ Finset.range graph.size, (graph.successors node).length := by
        rw [size, Finset.sum_range]

theorem searchBudget_eq (graph : Graph) :
    graph.searchBudget =
      ∑ node ∈ Finset.range graph.size, ((graph.successors node).length + 1) := by
  rw [Finset.sum_add_distrib, ← edgeCount_eq]
  simp [searchBudget, Nat.add_comm]

/-- The search of a whole graph is the unlimited loop: its budget never cuts it short. -/
theorem visits_searchAll (graph : Graph) :
    Search.Visits graph.successors (List.range graph.size) (Search.start graph.size)
      graph.searchAll :=
  Search.visits_foldlM (Nat.le_of_eq graph.searchBudget_eq.symm) _ rfl (by simp [Search.start])

end Statline.Graph
