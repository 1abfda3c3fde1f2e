import Statline.Proofs.Graph.Order

namespace Statline

namespace DepthFirst

/-- A node is active while the search is below it, which is when it lies on the path from the root,
and finished once it has been emitted. What is no node is never visited. -/
def colour (nodes path emitted : List String) (name : String) : Mark :=
  if name ∈ path then .active
  else if name ∈ nodes ∧ name ∉ emitted then .unseen
  else .finished

theorem colour_eq_unseen {nodes path emitted : List String} {name : String}
    (h : colour nodes path emitted name = .unseen) : name ∈ nodes ∧ name ∉ path := by
  unfold colour at h
  split at h
  next => cases h
  next off =>
    split at h
    next new => exact ⟨new.1, off⟩
    next => cases h

theorem length_filter_not_mem_lt {nodes path : List String} {name : String} (member : name ∈ nodes)
    (off : name ∉ path) :
    (nodes.filter (· ∉ path ++ [name])).length < (nodes.filter (· ∉ path)).length := by
  have again : nodes.filter (· ∉ path ++ [name]) = (nodes.filter (· ∉ path)).filter (· ≠ name) := by
    rw [List.filter_filter]
    refine List.filter_congr fun other _ => ?_
    simp [Bool.and_comm]
  rw [again]
  refine List.length_filter_lt_length_iff_exists.mpr ⟨name, ?_, by simp⟩
  exact List.mem_filter.mpr ⟨member, by simpa using off⟩

/-- Visits all that a name depends on, one after another, and then emits the name. A name that is
active closes a cycle with those that lie below it on the path. -/
def visit (nodes : List String) (dependencies : String → List String) (path emitted : List String)
    (name : String) : Except (List String) (List String) :=
  match _ : colour nodes path emitted name with
  | .finished => .ok emitted
  | .active => .error (path.dropWhile (· ≠ name) ++ [name])
  | .unseen => do
    let below ← (dependencies name).foldlM (visit nodes dependencies (path ++ [name])) emitted
    return below ++ [name]
termination_by (nodes.filter (· ∉ path)).length
decreasing_by
  next unseen =>
  obtain ⟨member, off⟩ := colour_eq_unseen unseen
  exact length_filter_not_mem_lt member off

/-- Visits the nodes in their order. -/
def order (nodes : List String) (dependencies : String → List String) :
    Except Fault (List String) :=
  (nodes.foldlM (visit nodes dependencies []) []).mapError .cycle

/-- The cycle that is met first is reported, without the name that leads to it. -/
example :
    order ["a", "b", "c"]
      (fun name => if name = "a" then ["b", "a"] else if name = "b" then ["c"] else ["b"]) =
        .error (.cycle ["b", "c", "b"]) := by
  cbv

variable {nodes path emitted : List String} {dependencies : String → List String} {name : String}

theorem visit_of_finished (h : colour nodes path emitted name = .finished) :
    visit nodes dependencies path emitted name = .ok emitted := by
  rw [visit]
  split
  next => rfl
  next other => cases h.symm.trans other
  next other => cases h.symm.trans other

theorem visit_of_active (h : colour nodes path emitted name = .active) :
    visit nodes dependencies path emitted name =
      .error (path.dropWhile (· ≠ name) ++ [name]) := by
  rw [visit]
  split
  next other => cases h.symm.trans other
  next => rfl
  next other => cases h.symm.trans other

theorem visit_of_unseen (h : colour nodes path emitted name = .unseen) :
    visit nodes dependencies path emitted name =
      (dependencies name).foldlM (visit nodes dependencies (path ++ [name])) emitted >>=
        fun below => .ok (below ++ [name]) := by
  rw [visit]
  split
  next other => cases h.symm.trans other
  next other => cases h.symm.trans other
  next => rfl

end DepthFirst

namespace Graph

variable {graph : Graph} {search : Search} {path emitted : List String} {node next : Nat}
  {later : List Nat} {outer : List Frame}

/-- The loop is where the recursion is: the frames are the active names, from the root on, and the
nodes finished so far are the names emitted. -/
structure Mirrors (graph : Graph) (path emitted : List String) (search : Search) : Prop where
  valid : Search.Valid graph.successors graph.size [] search
  path_eq : (search.stack.map (·.node)).reverse.map graph.nameOf = path
  emitted_eq : search.finished.reverse.map graph.nameOf = emitted

theorem nameOf_mem_map {items : List Nat} (bound : ∀ item ∈ items, item < graph.size)
    (hn : node < graph.size) : graph.nameOf node ∈ items.map graph.nameOf ↔ node ∈ items := by
  constructor
  · intro member
    obtain ⟨item, inside, same⟩ := List.mem_map.mp member
    exact nameOf_injOn (bound item inside) hn same ▸ inside
  · exact List.mem_map_of_mem

theorem Mirrors.lt_of_mem_stack (h : graph.Mirrors path emitted search) :
    ∀ item ∈ (search.stack.map (·.node)).reverse, item < graph.size := by
  intro item member
  have active := (h.valid.active_iff item).mpr (List.mem_reverse.mp member)
  exact h.valid.marks_size ▸ Search.lt_of_mark_ne_finished (by simp [active])

theorem Mirrors.mem_path (h : graph.Mirrors path emitted search) (hn : node < graph.size) :
    graph.nameOf node ∈ path ↔ search.mark node = .active := by
  rw [← h.path_eq, nameOf_mem_map h.lt_of_mem_stack hn, List.mem_reverse, h.valid.active_iff]

theorem Mirrors.mem_emitted (h : graph.Mirrors path emitted search) (hn : node < graph.size) :
    graph.nameOf node ∈ emitted ↔ search.mark node = .finished := by
  have bound : ∀ item ∈ search.finished.reverse, item < graph.size := fun item member =>
    ((h.valid.finished_iff item).mp (List.mem_reverse.mp member)).1
  rw [← h.emitted_eq, nameOf_mem_map bound hn, List.mem_reverse, h.valid.finished_iff]
  exact and_iff_right hn

theorem Mirrors.colour (h : graph.Mirrors path emitted search) (hn : node < graph.size) :
    DepthFirst.colour graph.nodes path emitted (graph.nameOf node) = search.mark node := by
  simp only [DepthFirst.colour, h.mem_path hn, h.mem_emitted hn, nameOf_mem_nodes hn, true_and]
  cases search.mark node <;> rfl

/-- From the search the loop comes to the stack with what the recursion has emitted, or it ends with
the cycle that the recursion reports. -/
def Follows (graph : Graph) (path : List String) (stack : List Frame) (search : Search) :
    Except (List String) (List String) → Prop
  | .ok emitted => ∃ after, graph.Mirrors path emitted after ∧ after.stack = stack ∧
      ∀ result, Search.Ends graph.successors after result →
        Search.Ends graph.successors search result
  | .error cycle => ∃ nodes, Search.Ends graph.successors search (.error nodes) ∧
      cycle = nodes.map graph.nameOf

theorem Follows.step {stack : List Frame} {after : Search}
    {visited : Except (List String) (List String)} (more : search.stack ≠ [])
    (moved : search.step graph.successors = .ok after)
    (h : graph.Follows path stack after visited) : graph.Follows path stack search visited := by
  cases visited with
  | ok emitted =>
    obtain ⟨last, mirrors, shape, leads⟩ := h
    exact ⟨last, mirrors, shape, fun result ends => .next more moved (leads result ends)⟩
  | error cycle =>
    obtain ⟨nodes, ends, same⟩ := h
    exact ⟨nodes, .next more moved ends, same⟩

theorem Follows.bind {stack last : List Frame} {onward : List String}
    {first : Except (List String) (List String)}
    {rest : List String → Except (List String) (List String)}
    (h : graph.Follows path stack search first)
    (hr : ∀ emitted after, graph.Mirrors path emitted after → after.stack = stack →
      graph.Follows onward last after (rest emitted)) :
    graph.Follows onward last search (first >>= rest) := by
  cases first with
  | error cycle => exact h
  | ok emitted =>
    obtain ⟨after, mirrors, shape, leads⟩ := h
    have later := hr emitted after mirrors shape
    change graph.Follows onward last search (rest emitted)
    cases visited : rest emitted with
    | ok all =>
      rw [visited] at later
      obtain ⟨final, reflects, empty, onwards⟩ := later
      exact ⟨final, reflects, empty, fun result ends => leads result (onwards result ends)⟩
    | error cycle =>
      rw [visited] at later
      obtain ⟨nodes, ends, same⟩ := later
      exact ⟨nodes, leads _ ends, same⟩

theorem dropWhile_map_nameOf {walk : List Nat} (bound : ∀ item ∈ walk, item < graph.size)
    (member : next ∈ walk) :
    (walk.map graph.nameOf).dropWhile (· ≠ graph.nameOf next) =
      (walk.drop ((walk.idxOf? next).getD 0)).map graph.nameOf := by
  have inside := bound next member
  induction walk with
  | nil => simp at member
  | cons first rest ih =>
    obtain ⟨head, tail⟩ := List.forall_mem_cons.mp bound
    by_cases same : first = next
    · subst same
      simp [List.idxOf?_cons]
    · have apart : graph.nameOf first ≠ graph.nameOf next := fun equal =>
        same (nameOf_injOn head inside equal)
      have later : next ∈ rest := (List.mem_cons.mp member).resolve_left (Ne.symm same)
      obtain ⟨depth, found⟩ := Option.isSome_iff_exists.mp (List.isSome_idxOf?.mpr later)
      have rest_eq := ih tail later
      rw [found] at rest_eq
      simpa [List.idxOf?_cons, same, found, apart] using rest_eq

/-- Both report the active names from the one met again on. -/
theorem Mirrors.cyclePath (h : graph.Mirrors path emitted search)
    (shape : search.stack = ⟨node, next :: later⟩ :: outer) (known : search.mark next = .active) :
    path.dropWhile (· ≠ graph.nameOf next) ++ [graph.nameOf next] =
      (Search.cyclePath (⟨node, later⟩ :: outer) next).map graph.nameOf := by
  have stacked : next ∈ (search.stack.map (·.node)).reverse :=
    List.mem_reverse.mpr ((h.valid.active_iff next).mp known)
  have dropped := dropWhile_map_nameOf h.lt_of_mem_stack stacked
  rw [h.path_eq] at dropped
  rw [dropped, Search.cyclePath, Search.depth?, List.map_append, shape]
  rfl

theorem Mirrors.step {after : Search} (h : graph.Mirrors path emitted search)
    (more : search.stack ≠ []) (moved : search.step graph.successors = .ok after)
    {onward all : List String}
    (path_eq : (after.stack.map (·.node)).reverse.map graph.nameOf = onward)
    (emitted_eq : after.finished.reverse.map graph.nameOf = all) :
    graph.Mirrors onward all after :=
  ⟨h.valid.step (fun _ _ => successors_lt) more moved, path_eq, emitted_eq⟩

/-- What the loop does with a dependency that a frame takes up is what the recursion does when it
visits it. -/
def Simulates (graph : Graph) (path emitted : List String) (name : String) : Prop :=
  ∀ search node next later outer, graph.Mirrors path emitted search →
    search.stack = ⟨node, next :: later⟩ :: outer → graph.nameOf next = name →
    graph.Follows path (⟨node, later⟩ :: outer) search
      (DepthFirst.visit graph.nodes graph.dependencies path emitted name)

/-- A frame deals with what is pending, and then its node is finished. -/
theorem Mirrors.follows_frame {pending : List Nat}
    (visits : ∀ emitted name, graph.Simulates (path ++ [graph.nameOf node]) emitted name)
    (h : graph.Mirrors (path ++ [graph.nameOf node]) emitted search)
    (shape : search.stack = ⟨node, pending⟩ :: outer) :
    graph.Follows path outer search
      ((pending.map graph.nameOf).foldlM (DepthFirst.visit graph.nodes graph.dependencies
        (path ++ [graph.nameOf node])) emitted >>=
        fun below => .ok (below ++ [graph.nameOf node])) := by
  induction pending generalizing search emitted with
  | nil =>
    have more : search.stack ≠ [] := by simp [shape]
    have moved : search.step graph.successors = _ := Search.step_of_nil shape
    refine .step more moved ⟨_, h.step more moved ?_ ?_, rfl, fun _ ends => ends⟩
    · have whole := h.path_eq
      simpa [shape] using whole
    · simp [h.emitted_eq]
  | cons next later ih =>
    rw [List.map_cons, List.foldlM_cons, bind_assoc]
    refine (visits emitted _ search node next later outer h shape rfl).bind ?_
    exact fun more after mirrors remains => ih mirrors remains

theorem Mirrors.next_lt (h : graph.Mirrors path emitted search)
    (shape : search.stack = ⟨node, next :: later⟩ :: outer) : next < graph.size := by
  have nested := shape ▸ h.valid.nested
  cases nested with
  | cons followed _ _ =>
    have edge : next ∈ graph.successors node := by simp [followed]
    exact successors_lt edge

theorem simulates (graph : Graph) (path emitted : List String) (name : String) :
    graph.Simulates path emitted name := by
  -- the recursion's own cases: for a name that is unseen, all visits below it simulate already
  induction path, emitted, name using DepthFirst.visit.induct graph.nodes with
  | case1 path emitted name finished =>
    rintro search node next later outer h shape rfl
    have more : search.stack ≠ [] := by simp [shape]
    have moved : search.step graph.successors = _ :=
      Search.step_of_finished shape ((h.colour (h.next_lt shape)).symm.trans finished)
    rw [DepthFirst.visit_of_finished finished]
    refine .step more moved ⟨_, h.step more moved ?_ h.emitted_eq, rfl, fun _ ends => ends⟩
    simpa [shape] using h.path_eq
  | case2 path emitted name active =>
    rintro search node next later outer h shape rfl
    have known := (h.colour (h.next_lt shape)).symm.trans active
    rw [DepthFirst.visit_of_active active]
    exact ⟨_, .cycle (Search.step_of_active shape known), h.cyclePath shape known⟩
  | case3 path emitted name unseen ih =>
    rintro search node next later outer h shape rfl
    have more : search.stack ≠ [] := by simp [shape]
    have moved : search.step graph.successors = _ :=
      Search.step_of_unseen shape ((h.colour (h.next_lt shape)).symm.trans unseen)
    have entered : graph.Mirrors (path ++ [graph.nameOf next]) emitted _ :=
      h.step more moved (by simp [Search.enter, ← h.path_eq, shape]) h.emitted_eq
    rw [DepthFirst.visit_of_unseen unseen, dependencies_nameOf (h.next_lt shape)]
    exact (entered.follows_frame ih rfl).step more moved

theorem Mirrors.enter (h : graph.Mirrors [] emitted search) (empty : search.stack = [])
    (unseen : search.mark node = .unseen) :
    graph.Mirrors [graph.nameOf node] emitted (search.enter graph.successors node) where
  valid := Search.Valid.enter { h.valid with nested := empty ▸ .nil } unseen
  path_eq := by simp [Search.enter, empty]
  emitted_eq := h.emitted_eq

/-- Visiting the roots one after another, the loop and the recursion emit the same names or report
the same cycle. -/
theorem Mirrors.visits {roots : List Nat} (bound : ∀ root ∈ roots, root < graph.size)
    (h : graph.Mirrors [] emitted search) (empty : search.stack = []) :
    ∃ result, Search.Visits graph.successors roots search result ∧
      (roots.map graph.nameOf).foldlM
          (DepthFirst.visit graph.nodes graph.dependencies []) emitted =
        match result with
        | .ok after => .ok (after.finished.reverse.map graph.nameOf)
        | .error nodes => .error (nodes.map graph.nameOf) := by
  induction roots generalizing search emitted with
  | nil => exact ⟨.ok search, .done, congrArg Except.ok h.emitted_eq.symm⟩
  | cons root rest ih =>
    obtain ⟨inside, bound⟩ := List.forall_mem_cons.mp bound
    have colour := h.colour inside
    rw [List.map_cons, List.foldlM_cons]
    cases known : search.mark root with
    | active =>
      have stacked := (h.valid.active_iff root).mp known
      simp [empty] at stacked
    | finished =>
      obtain ⟨result, visits, same⟩ := ih bound h empty
      rw [DepthFirst.visit_of_finished (colour.trans known)]
      exact ⟨result, .skip (by simp [known]) visits, same⟩
    | unseen =>
      have entered : graph.Mirrors ([] ++ [graph.nameOf root]) emitted _ := h.enter empty known
      have follows := entered.follows_frame (fun _ _ => graph.simulates _ _ _) rfl
      rw [← dependencies_nameOf inside,
        ← DepthFirst.visit_of_unseen (colour.trans known)] at follows
      cases visited : DepthFirst.visit graph.nodes graph.dependencies [] emitted
          (graph.nameOf root) with
      | error cycle =>
        rw [visited] at follows
        obtain ⟨nodes, ends, rfl⟩ := follows
        exact ⟨.error nodes, .cycle known ends, rfl⟩
      | ok all =>
        rw [visited] at follows
        obtain ⟨after, mirrors, same, leads⟩ := follows
        have left : after.stack = [] := same.trans empty
        obtain ⟨result, visits, onward⟩ := ih bound mirrors left
        exact ⟨result, .visit known (leads _ (.done left)) visits, onward⟩

theorem order_eq (graph : Graph) :
    graph.order = DepthFirst.order graph.nodes graph.dependencies := by
  have start : graph.Mirrors [] [] (Search.start graph.size) :=
    ⟨Search.valid_start graph.size, rfl, rfl⟩
  obtain ⟨result, visits, same⟩ :=
    start.visits (fun _ member => List.mem_range.mp member) rfl
  rw [← nodes_eq_map_range] at same
  rw [order, DepthFirst.order, same, graph.visits_searchAll.unique visits]
  cases result <;> rfl

/-- Sorting a graph gives what the recursion gives on the names in the order in which they were
first mentioned, each with its dependencies in the order in which they were added: the same order,
or the same cycle. -/
theorem order_eq_recursion_after_calls (calls : List Call) :
    (after calls).order =
      DepthFirst.order (calls.flatMap Call.names).eraseDups
        fun name => calls.filterMap (Call.gives name) := by
  have dependencies : (after calls).dependencies =
      fun name => calls.filterMap (Call.gives name) := funext (dependencies_after calls)
  rw [order_eq, nodes_after, dependencies]

end Graph

end Statline
