import Mathlib.Logic.Relation
import Statline.Graph.Closure
import Statline.Proofs.Search.Loop

namespace Statline.Sweep

variable {successors : Nat → List Nat} {sweep : Sweep} {roots : List Nat} {node : Nat}

def missing (sweep : Sweep) : Finset Nat :=
  (Finset.range sweep.found.size).filter (sweep.has · = false)

/-- The steps that a sweep can still take: one for each waiting node, and one for each dependency
of a node that is not found yet. -/
def weight (successors : Nat → List Nat) (sweep : Sweep) : Nat :=
  sweep.waiting.length + ∑ node ∈ sweep.missing, (successors node).length

theorem lt_of_has_eq_false (h : sweep.has node = false) : node < sweep.found.size := by
  by_contra outside
  simp [has, Nat.le_of_not_lt outside] at h

theorem mem_missing : node ∈ sweep.missing ↔ sweep.has node = false := by
  simp only [missing, Finset.mem_filter, Finset.mem_range, and_iff_right_iff_imp]
  exact lt_of_has_eq_false

theorem getD_found_eq_true {size : Nat} (h : sweep.found.size = size) :
    sweep.found.getD node false = true ↔ node < size ∧ sweep.has node = true := by
  subst h
  by_cases bound : node < sweep.found.size <;> simp [has, bound]

/-- A step drops a waiting node that was found before, or finds it and its dependencies wait. -/
theorem step_cases (successors : Nat → List Nat) (hs : sweep.waiting ≠ []) :
    (∃ node rest, sweep.waiting = node :: rest ∧ sweep.has node = true ∧
      sweep.step successors = { sweep with waiting := rest }) ∨
    (∃ node rest pending, sweep.waiting = node :: rest ∧ sweep.has node = false ∧
      sweep.step successors = ⟨sweep.found.setIfInBounds node true, pending ++ rest⟩ ∧
      pending.Sublist (successors node) ∧
      ∀ next ∈ successors node, next ∈ pending ∨
        (sweep.found.setIfInBounds node true).getD next true = true) := by
  obtain ⟨found, waiting⟩ := sweep
  match waiting with
  | [] => exact absurd rfl hs
  | node :: rest =>
    cases known : has ⟨found, node :: rest⟩ node with
    | true =>
      left
      exact ⟨node, rest, rfl, known, by simp [step, known]⟩
    | false =>
      right
      refine ⟨node, rest, (successors node).filter fun next =>
        !(found.setIfInBounds node true).getD next true, rfl, known, ?_, List.filter_sublist, ?_⟩
      · simp [step, known]
      · intro next member
        cases seen : (found.setIfInBounds node true).getD next true with
        | true => exact .inr rfl
        | false => exact .inl (List.mem_filter.mpr ⟨member, by simp [seen]⟩)

theorem has_mark (h : sweep.has node = false) (waiting : List Nat) (other : Nat) :
    has ⟨sweep.found.setIfInBounds node true, waiting⟩ other =
      if other = node then true else sweep.has other :=
  Search.getD_setIfInBounds (lt_of_has_eq_false h) true true other

theorem missing_mark (h : sweep.has node = false) (waiting : List Nat) :
    missing ⟨sweep.found.setIfInBounds node true, waiting⟩ = sweep.missing.erase node := by
  ext other
  rw [mem_missing, has_mark h, Finset.mem_erase, mem_missing]
  split <;> simp_all

theorem weight_step (successors : Nat → List Nat) (hs : sweep.waiting ≠ []) :
    (sweep.step successors).weight successors < sweep.weight successors := by
  rcases step_cases successors hs with ⟨node, rest, shape, known, moved⟩ |
    ⟨node, rest, pending, shape, unknown, moved, fewer, _⟩
  · have same : missing { sweep with waiting := rest } = sweep.missing := rfl
    simp only [moved, weight, shape, same, List.length_cons]
    omega
  · have split := Finset.add_sum_erase sweep.missing (fun node => (successors node).length)
      (mem_missing.mpr unknown)
    have short := fewer.length_le
    simp only [moved, weight, shape, missing_mark unknown, List.length_append, List.length_cons]
    omega

theorem found_size_step (successors : Nat → List Nat) (sweep : Sweep) :
    (sweep.step successors).found.size = sweep.found.size := by
  unfold step
  split
  next => rfl
  next =>
    split
    next => rfl
    next => exact Array.size_setIfInBounds

/-- Where the loop of a sweep ends when nothing limits how long it runs. -/
inductive Ends (successors : Nat → List Nat) : Sweep → Sweep → Prop
  | done {sweep : Sweep} : sweep.waiting = [] → Ends successors sweep sweep
  | next {sweep last : Sweep} :
      sweep.waiting ≠ [] → Ends successors (sweep.step successors) last →
      Ends successors sweep last

/-- A budget that covers the weight of a sweep lets the loop run to its end. -/
theorem run_ends {budget : Nat} (enough : sweep.weight successors ≤ budget) :
    Ends successors sweep (run successors budget sweep) := by
  induction budget generalizing sweep with
  | zero =>
    rw [weight] at enough
    exact .done (List.length_eq_zero_iff.mp (by omega))
  | succ budget ih =>
    rw [run]
    split
    next empty => exact .done (List.isEmpty_iff.mp empty)
    next more =>
      have waits : sweep.waiting ≠ [] := by simpa using more
      have less := weight_step successors waits
      exact .next waits (ih (by omega))

theorem Ends.keeps {P : Sweep → Prop} {last : Sweep} (h : Ends successors sweep last)
    (hp : ∀ sweep, sweep.waiting ≠ [] → P sweep → P (sweep.step successors)) (start : P sweep) :
    P last ∧ last.waiting = [] := by
  induction h with
  | done empty => exact ⟨start, empty⟩
  | next waits _ ih => exact ih (hp _ waits start)

def Edge (successors : Nat → List Nat) (node next : Nat) : Prop :=
  next ∈ successors node

/-- What is found or waits can be reached from the roots, and nothing that follows from it is
lost. -/
structure Explores (successors : Nat → List Nat) (size : Nat) (roots : List Nat) (sweep : Sweep) :
    Prop where
  sized : sweep.found.size = size
  rooted : ∀ root ∈ roots, sweep.has root = true ∨ root ∈ sweep.waiting
  closed : ∀ node < size, sweep.has node = true →
    ∀ next ∈ successors node, sweep.has next = true ∨ next ∈ sweep.waiting
  reached : ∀ node, (node < size ∧ sweep.has node = true) ∨ node ∈ sweep.waiting →
    ∃ root ∈ roots, Relation.ReflTransGen (Edge successors) root node

variable {size : Nat}

theorem explores_start (successors : Nat → List Nat) (size : Nat) (roots : List Nat) :
    Explores successors size roots ⟨Array.replicate size false, roots⟩ := by
  have nothing : ∀ node < size, has ⟨Array.replicate size false, roots⟩ node = false := by
    intro node bound
    simp [has, bound]
  constructor
  · exact Array.size_replicate
  · exact fun root member => .inr member
  · intro node bound known
    rw [nothing node bound] at known
    cases known
  · rintro node (⟨bound, known⟩ | member)
    · rw [nothing node bound] at known
      cases known
    · exact ⟨node, member, .refl⟩

theorem Explores.step (h : Explores successors size roots sweep) (hs : sweep.waiting ≠ []) :
    Explores successors size roots (sweep.step successors) := by
  have same := (found_size_step successors sweep).trans h.sized
  rcases step_cases successors hs with ⟨node, rest, shape, known, moved⟩ |
    ⟨node, rest, pending, shape, unknown, moved, fewer, covered⟩
  · -- the dropped node was found already, so nothing waits for it any more
    have keep : ∀ other, sweep.has other = true ∨ other ∈ sweep.waiting →
        sweep.has other = true ∨ other ∈ rest := by
      rw [shape]
      rintro other (seen | member)
      · exact .inl seen
      · rcases List.mem_cons.mp member with rfl | member
        · exact .inl known
        · exact .inr member
    rw [moved]
    refine ⟨h.sized, fun root member => keep root (h.rooted root member), ?_, ?_⟩
    · exact fun other bound seen next member => keep next (h.closed other bound seen next member)
    · rintro other (seen | member)
      · exact h.reached other (.inl seen)
      · exact h.reached other (.inr (shape ▸ List.mem_cons_of_mem node member))
  · rw [moved] at same ⊢
    have keep : ∀ other, sweep.has other = true ∨ other ∈ sweep.waiting →
        has ⟨sweep.found.setIfInBounds node true, pending ++ rest⟩ other = true ∨
          other ∈ pending ++ rest := by
      rw [shape]
      intro other seen
      rw [has_mark unknown]
      split
      next => exact .inl rfl
      next apart =>
        refine seen.imp_right fun waits => List.mem_append_right pending ?_
        exact (List.mem_cons.mp waits).resolve_left apart
    obtain ⟨root, member, path⟩ := h.reached node (.inr (by simp [shape]))
    refine ⟨same, fun root member => keep root (h.rooted root member), ?_, ?_⟩
    · intro other bound seen next edge
      rw [has_mark unknown] at seen
      split at seen
      next here =>
        rcases covered next (here ▸ edge) with waits | seen
        · exact .inr (List.mem_append_left rest waits)
        · exact .inl seen
      next => exact keep next (h.closed other bound seen next edge)
    · rintro other (⟨bound, seen⟩ | waits)
      · rw [has_mark unknown] at seen
        split at seen
        next here => exact here ▸ ⟨root, member, path⟩
        next => exact h.reached other (.inl ⟨bound, seen⟩)
      · rcases List.mem_append.mp waits with waits | waits
        · exact ⟨root, member, path.tail (fewer.subset waits)⟩
        · exact h.reached other (.inr (shape ▸ List.mem_cons_of_mem node waits))

/-- A sweep that runs out of waiting nodes has found what can be reached from the roots. -/
theorem Explores.has_iff (h : Explores successors size roots sweep) (hs : sweep.waiting = [])
    (hr : ∀ root ∈ roots, root < size)
    (hb : ∀ node next, next ∈ successors node → next < size) (node : Nat) :
    node < size ∧ sweep.has node = true ↔
      ∃ root ∈ roots, Relation.ReflTransGen (Edge successors) root node := by
  constructor
  · exact fun seen => h.reached node (.inl seen)
  · rintro ⟨root, member, path⟩
    induction path with
    | refl => exact ⟨hr root member, (h.rooted root member).resolve_right (by simp [hs])⟩
    | tail _ edge ih =>
      obtain ⟨bound, seen⟩ := ih
      exact ⟨hb _ _ edge, (h.closed _ bound seen _ edge).resolve_right (by simp [hs])⟩

end Statline.Sweep
