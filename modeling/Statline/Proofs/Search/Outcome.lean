import Statline.Proofs.Search.Invariant

namespace Statline.Search

variable {successors : Nat → List Nat} {search : Search} {result : Except (List Nat) Search}

/-- A property of the search at the end of its loop; a loop that meets a cycle ends just before. -/
def Outcome (successors : Nat → List Nat) (P : Search → Prop) : Except (List Nat) Search → Prop
  | .ok after => after.stack = [] ∧ P after
  | .error path => ∃ last : Search, P last ∧ last.step successors = .error path

theorem Ends.keeps {P : Search → Prop}
    (step : ∀ search after : Search, search.stack ≠ [] → search.step successors = .ok after →
      P search → P after)
    (h : Ends successors search result) (hp : P search) : Outcome successors P result := by
  induction h with
  | done hs => exact ⟨hs, hp⟩
  | cycle met => exact ⟨_, hp, met⟩
  | next more moved _ ih => exact ih (step _ _ more moved hp)

theorem Visits.keeps {P : Search → Prop}
    (step : ∀ search after : Search, search.stack ≠ [] → search.step successors = .ok after →
      P search → P after)
    (enter : ∀ (search : Search) (root : Nat), search.stack = [] → search.mark root = .unseen →
      P search → P (search.enter successors root))
    {roots : List Nat} (h : Visits successors roots search result) (hs : search.stack = [])
    (hp : P search) : Outcome successors P result := by
  induction h with
  | done => exact ⟨hs, hp⟩
  | skip _ _ ih => exact ih hs hp
  | visit unknown ends _ ih =>
    obtain ⟨empty, kept⟩ := ends.keeps step (enter _ _ hs unknown hp)
    exact ih empty kept
  | cycle unknown ends => exact ends.keeps step (enter _ _ hs unknown hp)

theorem Visits.valid {size : Nat} (hb : ∀ node, ∀ next ∈ successors node, next < size)
    {roots : List Nat} (h : Visits successors roots (start size) result) :
    Outcome successors (Valid successors size []) result := by
  refine h.keeps (fun _ _ more moved valid => valid.step hb more moved) ?_ rfl (valid_start size)
  intro search root hs unknown valid
  have ready : Valid successors size [root] search := { valid with nested := hs ▸ .nil }
  exact ready.enter unknown

theorem Ends.seen_of_seen {node : Nat} (h : Ends successors search result)
    (seen : node ∉ search.unseen) : Outcome successors (node ∉ ·.unseen) result :=
  h.keeps (fun _ _ more moved seen member => seen (unseen_step more moved member)) seen

theorem Visits.seen_of_seen {roots : List Nat} {node : Nat}
    (h : Visits successors roots search result) (hs : search.stack = [])
    (seen : node ∉ search.unseen) : Outcome successors (node ∉ ·.unseen) result := by
  refine h.keeps (fun _ _ more moved seen member => seen (unseen_step more moved member)) ?_ hs seen
  intro search root _ unknown seen member
  rw [unseen_enter unknown] at member
  exact seen (Finset.mem_of_mem_erase member)

theorem Visits.root_seen {roots : List Nat} {root : Nat}
    (h : Visits successors roots search result) (hs : search.stack = []) (hr : root ∈ roots) :
    ∀ after, result = .ok after → root ∉ after.unseen := by
  induction h with
  | done => simp at hr
  | @skip search first roots result known rest ih =>
    rcases List.mem_cons.mp hr with rfl | hr
    · rintro after rfl
      exact (rest.seen_of_seen hs (by rwa [mem_unseen])).2
    · exact ih hs hr
  | @visit search after first roots result unknown ends rest ih =>
    rcases List.mem_cons.mp hr with rfl | hr
    · have entered : root ∉ (search.enter successors root).unseen := by simp [unseen_enter unknown]
      obtain ⟨empty, left⟩ := ends.seen_of_seen entered
      rintro last rfl
      exact (rest.seen_of_seen empty left).2
    · exact ih ends.stack_eq_nil.1 hr
  | cycle => rintro after ⟨⟩

theorem Visits.finished_iff {size : Nat} (hb : ∀ node, ∀ next ∈ successors node, next < size)
    {after : Search} (h : Visits successors (List.range size) (start size) (.ok after)) :
    Settled successors after.finished ∧ ∀ node, node ∈ after.finished ↔ node < size := by
  obtain ⟨empty, valid⟩ := h.valid hb
  refine ⟨valid.settled, fun node => ⟨fun member => ((valid.finished_iff node).mp member).1, ?_⟩⟩
  intro bound
  have seen := h.root_seen rfl (List.mem_range.mpr bound) after rfl
  have inactive : after.mark node ≠ .active := by simp [valid.active_iff, empty]
  rw [mem_unseen] at seen
  refine (valid.finished_iff node).mpr ⟨bound, ?_⟩
  cases mark : after.mark node with
  | unseen => exact absurd mark seen
  | active => exact absurd mark inactive
  | finished => rfl

end Statline.Search
