import Mathlib.Data.List.Chain
import Statline.Proofs.Search.Loop

namespace Statline.Search

variable {successors : Nat → List Nat} {finished : List Nat}

/-- Nodes, the one finished last first, each of them listed once and after all it depends on. -/
inductive Settled (successors : Nat → List Nat) : List Nat → Prop
  | nil : Settled successors []
  | cons {node : Nat} {earlier : List Nat} :
      node ∉ earlier → (∀ next ∈ successors node, next ∈ earlier) → Settled successors earlier →
      Settled successors (node :: earlier)

theorem Settled.nodup (h : Settled successors finished) : finished.Nodup := by
  induction h with
  | nil => exact .nil
  | cons new _ _ ih => exact List.nodup_cons.mpr ⟨new, ih⟩

theorem Settled.split {node : Nat} (h : Settled successors finished) (hn : node ∈ finished) :
    ∃ later earlier, finished = later ++ node :: earlier ∧
      ∀ next ∈ successors node, next ∈ earlier := by
  induction h with
  | nil => simp at hn
  | @cons first earlier new done _ ih =>
    rcases List.mem_cons.mp hn with rfl | hn
    · exact ⟨[], earlier, rfl, done⟩
    · obtain ⟨later, before, rfl, follows⟩ := ih hn
      exact ⟨first :: later, before, rfl, follows⟩

/-- Each frame has followed some finished dependencies and then the node of the frame within. -/
inductive Nested (successors : Nat → List Nat) (finished : List Nat) :
    List Nat → List Frame → Prop
  | nil {inner : List Nat} : Nested successors finished inner []
  | cons {inner followed pending : List Nat} {node : Nat} {outer : List Frame} :
      successors node = followed ++ (inner ++ pending) → (∀ next ∈ followed, next ∈ finished) →
      Nested successors finished [node] outer →
      Nested successors finished inner (⟨node, pending⟩ :: outer)

theorem Nested.mono {finished more inner : List Nat} {stack : List Frame}
    (h : Nested successors finished inner stack) (hm : ∀ node ∈ finished, node ∈ more) :
    Nested successors more inner stack := by
  induction h with
  | nil => exact .nil
  | cons shape done _ ih => exact .cons shape (fun next hn => hm next (done next hn)) ih

theorem Nested.pass {finished : List Nat} {next : Nat} {stack : List Frame}
    (h : Nested successors finished [next] stack) (hn : next ∈ finished) :
    Nested successors finished [] stack := by
  cases h with
  | nil => exact .nil
  | @cons _ followed pending node outer shape done outside =>
    have further : successors node = (followed ++ [next]) ++ ([] ++ pending) := by simpa using shape
    refine .cons further ?_ outside
    intro other ho
    rcases List.mem_append.mp ho with ho | ho
    · exact done other ho
    · exact List.mem_singleton.mp ho ▸ hn

theorem Nested.isChain {finished inner : List Nat} {stack : List Frame}
    (h : Nested successors finished inner stack) :
    (stack.map (·.node)).IsChain fun inner outer => inner ∈ successors outer := by
  induction h with
  | nil => exact .nil
  | @cons _ _ _ node outer _ _ outside ih =>
    cases outside with
    | nil => exact .singleton _
    | cons shape _ _ => exact .cons_cons (by simp [shape]) ih

/-- What holds of a search at every moment; `inner` is the dependency that the innermost frame has
taken up and not yet dealt with, if there is one. -/
structure Valid (successors : Nat → List Nat) (size : Nat) (inner : List Nat) (search : Search) :
    Prop where
  marks_size : search.marks.size = size
  settled : Settled successors search.finished
  nested : Nested successors search.finished inner search.stack
  distinct : (search.stack.map (·.node)).Nodup
  active_iff : ∀ node, search.mark node = .active ↔ node ∈ search.stack.map (·.node)
  finished_iff : ∀ node, node ∈ search.finished ↔ node < size ∧ search.mark node = .finished

theorem valid_start (size : Nat) : Valid successors size [] (start size) where
  marks_size := by simp [start]
  settled := .nil
  nested := .nil
  distinct := .nil
  active_iff node := by
    by_cases h : node < size <;> simp [start, mark, h]
  finished_iff node := by
    by_cases h : node < size <;> simp [start, mark, h]

variable {size : Nat} {search after : Search} {inner later : List Nat} {node next : Nat}
  {outer : List Frame}

theorem Valid.enter (h : Valid successors size [next] search) (hn : search.mark next = .unseen) :
    Valid successors size [] (search.enter successors next) where
  marks_size := by simp [Search.enter, h.marks_size]
  settled := h.settled
  nested := .cons (List.nil_append _).symm (fun _ member => absurd member List.not_mem_nil) h.nested
  distinct := by
    refine List.nodup_cons.mpr ⟨fun member => ?_, h.distinct⟩
    rw [← h.active_iff, hn] at member
    cases member
  active_iff other := by
    rw [mark_enter hn]
    split
    next same => simp [Search.enter, same]
    next apart => simpa [Search.enter, apart] using h.active_iff other
  finished_iff other := by
    rw [mark_enter hn]
    split
    next same =>
      have unfinished := h.finished_iff next
      simpa [Search.enter, same, hn] using unfinished
    next => exact h.finished_iff other

theorem Valid.follow (h : Valid successors size [] search)
    (hs : search.stack = ⟨node, next :: later⟩ :: outer) :
    Valid successors size [next] { search with stack := ⟨node, later⟩ :: outer } := by
  obtain ⟨marks_size, settled, nested, distinct, active_iff, finished_iff⟩ := h
  rw [hs] at nested distinct active_iff
  refine ⟨marks_size, settled, ?_, distinct, active_iff, finished_iff⟩
  cases nested with
  | cons shape done outside => exact .cons shape done outside

theorem Valid.pass (h : Valid successors size [next] search) (hn : next ∈ search.finished) :
    Valid successors size [] search :=
  { h with nested := h.nested.pass hn }

theorem Valid.finish (h : Valid successors size [] search)
    (hs : search.stack = ⟨node, []⟩ :: outer) :
    Valid successors size []
      ⟨search.marks.setIfInBounds node .finished, outer, node :: search.finished⟩ := by
  have active : search.mark node = .active := (h.active_iff node).mpr (by simp [hs])
  have bound : node < search.marks.size := lt_of_mark_ne_finished (by simp [active])
  have unfinished : node ∉ search.finished := by simp [h.finished_iff, active]
  have distinct : node ∉ outer.map (·.node) ∧ (outer.map (·.node)).Nodup :=
    List.nodup_cons.mp (by simpa [hs] using h.distinct)
  have nested := hs ▸ h.nested
  refine ⟨by simpa using h.marks_size, ?_, ?_, distinct.2, ?_, ?_⟩
  · cases nested with
    | cons shape done _ =>
      have followed : ∀ next ∈ successors node, next ∈ search.finished := by
        intro next hn
        exact done next (by simpa [shape] using hn)
      exact .cons unfinished followed h.settled
  · cases nested with
    | cons _ _ outside =>
      exact (outside.mono fun _ => List.mem_cons_of_mem node).pass List.mem_cons_self
  · intro other
    rw [mark_finish bound]
    split
    next same => simpa [same] using distinct.1
    next apart => simpa [hs, apart] using h.active_iff other
  · intro other
    rw [mark_finish bound]
    split
    next same => simp [same, ← h.marks_size, bound]
    next apart => simpa [apart] using h.finished_iff other

theorem Valid.step (hb : ∀ node, ∀ next ∈ successors node, next < size)
    (h : Valid successors size [] search) (hs : search.stack ≠ [])
    (moved : search.step successors = .ok after) : Valid successors size [] after := by
  rcases step_ok_cases hs moved with ⟨node, outer, shape, rfl⟩ |
    ⟨node, next, later, outer, shape, unknown, rfl⟩ | ⟨node, next, later, outer, shape, known, rfl⟩
  · exact h.finish shape
  · exact (h.follow shape).enter unknown
  · refine (h.follow shape).pass ((h.finished_iff next).mpr ⟨hb node next ?_, known⟩)
    have nested := shape ▸ h.nested
    cases nested with
    | cons shape _ _ => simp [shape]

end Statline.Search
