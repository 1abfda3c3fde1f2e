import Mathlib.Logic.Relation
import Statline.Proofs.Search.Outcome

namespace Statline

/-- A path along a relation that ends where it starts and otherwise meets nothing twice. -/
def IsCycle {α : Type} (R : α → α → Prop) (path : List α) : Prop :=
  ∃ start rest, path = start :: rest ++ [start] ∧ (start :: rest).Nodup ∧ path.IsChain R

namespace IsCycle

variable {α β : Type} {R : α → α → Prop} {S : β → β → Prop} {path : List α}

theorem transGen_of_isChain {first last : α} {between : List α}
    (h : (first :: between ++ [last]).IsChain R) : Relation.TransGen R first last := by
  induction between generalizing first with
  | nil => exact .single (by simpa using h)
  | cons next rest ih =>
    obtain ⟨edge, chain⟩ := List.isChain_cons_cons.mp h
    exact .head edge (ih chain)

theorem transGen (h : IsCycle R path) : ∃ start, Relation.TransGen R start start := by
  obtain ⟨start, rest, rfl, _, chain⟩ := h
  exact ⟨start, transGen_of_isChain chain⟩

/-- The path leads from each of its members round to it again. -/
theorem transGen_of_mem {a : α} (h : IsCycle R path) (member : a ∈ path) :
    Relation.TransGen R a a := by
  obtain ⟨start, rest, rfl, _, chain⟩ := h
  have inside : a = start ∨ a ∈ rest := by grind
  rcases inside with rfl | inside
  · exact transGen_of_isChain chain
  · obtain ⟨before, behind, rfl⟩ := List.append_of_mem inside
    have onward : (a :: behind ++ [start]).IsChain R :=
      chain.suffix ⟨start :: before, by simp⟩
    have back : (start :: before ++ [a]).IsChain R :=
      chain.prefix ⟨behind ++ [start], by simp⟩
    exact (transGen_of_isChain onward).trans (transGen_of_isChain back)

theorem two_le_length (h : IsCycle R path) : 2 ≤ path.length := by
  obtain ⟨start, rest, rfl, _, _⟩ := h
  simp

theorem head?_eq_getLast? (h : IsCycle R path) : path.head? = path.getLast? := by
  obtain ⟨start, rest, rfl, _, _⟩ := h
  rw [List.getLast?_concat]
  rfl

theorem nodup_dropLast (h : IsCycle R path) : path.dropLast.Nodup := by
  obtain ⟨start, rest, rfl, distinct, _⟩ := h
  rwa [List.dropLast_concat]

theorem isChain (h : IsCycle R path) : path.IsChain R := by
  obtain ⟨_, _, _, _, chain⟩ := h
  exact chain

theorem map {f : α → β} (h : IsCycle R path) (hf : ∀ a ∈ path, ∀ b ∈ path, f a = f b → a = b)
    (hR : ∀ a ∈ path, ∀ b ∈ path, R a b → S (f a) (f b)) : IsCycle S (path.map f) := by
  obtain ⟨start, rest, rfl, distinct, chain⟩ := h
  refine ⟨f start, rest.map f, by simp, ?_, ?_⟩
  · rw [← List.map_cons]
    refine distinct.map_on fun a ha b hb => hf a ?_ b ?_
    · exact List.mem_append_left _ ha
    · exact List.mem_append_left _ hb
  · rw [List.isChain_map]
    exact chain.imp_of_mem_imp fun a b ha hb => hR a ha b hb

end IsCycle

namespace Search

variable {successors : Nat → List Nat} {size : Nat} {search : Search}

theorem isCycle_of_walk {R : Nat → Nat → Prop} {walk : List Nat} {node next depth : Nat}
    (distinct : walk.Nodup) (chain : walk.IsChain R) (hl : walk.getLast? = some node)
    (edge : R node next) (hd : walk.idxOf? next = some depth) :
    IsCycle R (walk.drop depth ++ [next]) := by
  obtain ⟨bound, here, _⟩ := List.idxOf?_eq_some_iff.mp hd
  have shape : walk.drop depth = next :: walk.drop (depth + 1) := by
    rw [List.drop_eq_getElem_cons bound, here]
  have suffix : walk.drop depth <:+ walk := List.drop_suffix depth walk
  refine ⟨next, walk.drop (depth + 1), by rw [shape], ?_, ?_⟩
  · exact shape ▸ distinct.sublist suffix.sublist
  · refine (chain.suffix suffix).append (.singleton next) ?_
    intro last hlast first hfirst
    rw [List.getLast?_drop, if_neg (by omega), hl] at hlast
    obtain rfl : node = last := Option.some.inj hlast
    obtain rfl : next = first := by simpa using hfirst
    exact edge

/-- A node that is met again is on the stack. -/
theorem Valid.exists_depth (h : Valid successors size [] search) {node next : Nat}
    {later : List Nat} {outer : List Frame} (shape : search.stack = ⟨node, next :: later⟩ :: outer)
    (active : search.mark next = .active) :
    ∃ depth, depth? (⟨node, later⟩ :: outer) next = some depth := by
  have stacked : next ∈ search.stack.map (·.node) := (h.active_iff next).mp active
  apply Option.isSome_iff_exists.mp
  rw [depth?, List.isSome_idxOf?, List.mem_reverse]
  simpa [shape] using stacked

/-- Meeting an active node again closes a cycle of nodes on the stack. -/
theorem Valid.isCycle (h : Valid successors size [] search) {path : List Nat}
    (met : search.step successors = .error path) :
    IsCycle (fun node next => next ∈ successors node) path ∧ ∀ node ∈ path, node < size := by
  obtain ⟨node, next, later, outer, shape, active, rfl⟩ := step_error_cases met
  obtain ⟨depth, hd⟩ := h.exists_depth shape active
  have distinct : (node :: outer.map (·.node)).Nodup := by simpa [shape] using h.distinct
  have chain : (node :: outer.map (·.node)).IsChain fun inner outer =>
      inner ∈ successors outer := by
    simpa [shape] using h.nested.isChain
  have edge : next ∈ successors node := by
    have nested := shape ▸ h.nested
    cases nested with
    | cons followed _ _ => simp [followed]
  rw [cyclePath, hd, Option.getD_some]
  constructor
  · refine isCycle_of_walk (List.nodup_reverse.mpr distinct) (List.isChain_reverse.mpr chain) ?_
      edge hd
    simp
  · intro other member
    have stacked : next ∈ search.stack.map (·.node) := (h.active_iff next).mp active
    have onStack : other ∈ search.stack.map (·.node) := by
      rcases List.mem_append.mp member with member | member
      · simpa [shape] using List.mem_reverse.mp (List.mem_of_mem_drop member)
      · exact List.mem_singleton.mp member ▸ stacked
    have seen := (h.active_iff other).mpr onStack
    exact h.marks_size ▸ lt_of_mark_ne_finished (by simp [seen])

end Search

end Statline
