import Statline.Proofs.Ranking
import Statline.Proofs.Roster.Accepted
import Statline.Proofs.Roster.History

namespace Statline

variable {context : Context} {actor : Actor} {seat other : Seat} {roster trimmed : Roster}
  {ids : List String}

/-- What the subsystem contributes is determined by the context and the actor. -/
def Subsystem.Steady (subsystem : Subsystem) : Prop :=
  ∀ context actor asked again,
    subsystem.contribute asked context actor = subsystem.contribute again context actor

namespace Seat

/-- A hook of the subsystem fails, or the output that it contributes is not valid. -/
def fails (seat : Seat) (context : Context) (actor : Actor) : Bool :=
  !(seat.subsystem.validate actor).isOk ||
    match seat.subsystem.contribute seat.asked context actor with
    | .error _ => true
    | .ok none => false
    | .ok (some output) => !output.validate.isOk

/-- The subsystem is not active, it fails, or it contributes nothing. -/
def isIdle (seat : Seat) (context : Context) (actor : Actor) : Bool :=
  !seat.subsystem.isActive actor || seat.fails context actor ||
    match seat.subsystem.contribute seat.asked context actor with
    | .ok none => true
    | _ => false

/-- The output that counts for the actor, if there is one. -/
def offer (seat : Seat) (context : Context) (actor : Actor) : Option Output :=
  if seat.subsystem.isActive actor then (seat.answer context actor).toOption.join else none

theorem answer_cases (seat : Seat) (context : Context) (actor : Actor) :
    (seat.fails context actor = true ∧ ∃ fault, seat.answer context actor = .error fault) ∨
    (seat.fails context actor = false ∧ seat.answer context actor = .ok none ∧
      seat.subsystem.contribute seat.asked context actor = .ok none) ∨
    (seat.fails context actor = false ∧ ∃ output, seat.answer context actor = .ok (some output) ∧
      seat.subsystem.contribute seat.asked context actor = .ok (some output)) := by
  unfold answer fails
  cases seat.subsystem.validate actor with
  | error fault => exact .inl ⟨rfl, fault, rfl⟩
  | ok =>
    cases seat.subsystem.contribute seat.asked context actor with
    | error fault => exact .inl ⟨rfl, fault, rfl⟩
    | ok given =>
      cases given with
      | none => exact .inr (.inl ⟨rfl, rfl, rfl⟩)
      | some output =>
        simp only [bind, Except.bind]
        cases output.validate with
        | error fault => exact .inl ⟨rfl, fault, rfl⟩
        | ok => exact .inr (.inr ⟨rfl, output, rfl, rfl⟩)

theorem isOk_answer (seat : Seat) (context : Context) (actor : Actor) :
    (seat.answer context actor).isOk = !seat.fails context actor := by
  rcases seat.answer_cases context actor with
    ⟨failed, fault, answered⟩ | ⟨sound, answered, _⟩ | ⟨sound, output, answered, _⟩
  · rw [failed, answered]
    rfl
  · rw [sound, answered]
    rfl
  · rw [sound, answered]
    rfl

theorem offer_of_isIdle (idle : seat.isIdle context actor = true) :
    seat.offer context actor = none := by
  unfold offer
  split
  next active =>
    rcases seat.answer_cases context actor with
      ⟨_, fault, answered⟩ | ⟨_, answered, _⟩ | ⟨sound, output, _, given⟩
    · rw [answered]
      rfl
    · rw [answered]
      rfl
    · simp [isIdle, active, sound, given] at idle
  next => rfl

/-- Of a steady subsystem it does not matter how often it has been asked. -/
theorem offer_congr (steady : seat.subsystem.Steady) (same : seat.subsystem = other.subsystem) :
    seat.offer context actor = other.offer context actor := by
  have given := steady context actor seat.asked other.asked
  rw [offer, offer, answer, answer, given, same]

end Seat

namespace Roster

theorem accepted_answers (roster : Roster) (context : Context) (actor : Actor) :
    Aggregator.accepted (roster.answers context actor) =
      roster.seatsByPriority.filterMap (·.offer context actor) := by
  rw [Aggregator.accepted, answers, List.filterMap_map, List.filterMap_filter]
  rfl

theorem filterMap_offer_congr {seats others : List Seat}
    (steady : ∀ seat ∈ seats, seat.subsystem.Steady)
    (same : seats.map (·.subsystem) = others.map (·.subsystem)) :
    seats.filterMap (·.offer context actor) = others.filterMap (·.offer context actor) := by
  induction seats generalizing others with
  | nil =>
    rw [List.map_nil, eq_comm, List.map_eq_nil_iff] at same
    rw [same]
  | cons seat rest ih =>
    obtain ⟨first, later⟩ := List.forall_mem_cons.mp steady
    rw [List.map_cons, eq_comm] at same
    obtain ⟨other, others, rfl, head, tail⟩ := List.map_eq_cons_iff.mp same
    rw [List.filterMap_cons, List.filterMap_cons, Seat.offer_congr first head.symm,
      ih later tail.symm]

/-- Those that stay are asked in the order in which they were asked among the others. -/
theorem map_seatsByPriority_of_left (left : trimmed.all = roster.all.filter (·.id ∉ ids)) :
    trimmed.seatsByPriority.map (·.subsystem) =
      (roster.seatsByPriority.filter (·.subsystem.id ∉ ids)).map (·.subsystem) := by
  have ranking (roster : Roster) : roster.seatsByPriority.map (·.subsystem) =
      ranked (·.priority) roster.all := (ranked_map (·.subsystem) roster.seats).symm
  rw [ranking, left, ranked_filter, ← ranking, List.filter_map]
  rfl

/-- Without the idle ones the same outputs are gathered, in the same order. -/
theorem accepted_of_left (steady : ∀ subsystem ∈ roster.all, subsystem.Steady)
    (idle : ∀ seat ∈ roster.seats, seat.subsystem.id ∈ ids → seat.isIdle context actor = true)
    (left : trimmed.all = roster.all.filter (·.id ∉ ids)) :
    Aggregator.accepted (trimmed.answers context actor) =
      Aggregator.accepted (roster.answers context actor) := by
  have sits {seat : Seat} (member : seat ∈ roster.seatsByPriority) : seat ∈ roster.seats :=
    (ranked_perm _ _).mem_iff.mp member
  have steady' : ∀ seat ∈ roster.seatsByPriority.filter (·.subsystem.id ∉ ids),
      seat.subsystem.Steady := fun seat member =>
    steady _ (List.mem_map_of_mem (sits (List.mem_of_mem_filter member)))
  rw [accepted_answers, accepted_answers,
    ← filterMap_offer_congr steady' (map_seatsByPriority_of_left left).symm,
    List.filterMap_filter]
  refine List.filterMap_congr fun seat member => ?_
  split
  next => rfl
  next dropped =>
    have listed : seat.subsystem.id ∈ ids := by simpa using dropped
    exact (Seat.offer_of_isIdle (idle seat (sits member) listed)).symm

theorem countP_answers (roster : Roster) (context : Context) (actor : Actor) :
    (roster.answers context actor).countP (fun answer => !answer.isOk) =
      roster.seats.countP fun seat =>
        seat.subsystem.isActive actor && seat.fails context actor := by
  rw [answers, List.countP_map, List.countP_filter, seatsByPriority,
    (ranked_perm _ _).countP_eq]
  refine List.countP_congr fun seat _ => ?_
  simp [Seat.isOk_answer, and_comm]

/-- Dismissing subsystems leaves the others in place, however often each has been asked. -/
theorem all_of_dismissed (distinct : ids.Nodup) (held : ∀ id ∈ ids, id ∈ roster.enrolled) :
    ∃ trimmed, ids.foldlM dismiss roster = .ok trimmed ∧
      trimmed.all = roster.all.filter (·.id ∉ ids) := by
  refine ⟨_, foldlM_dismiss distinct held, ?_⟩
  rw [all, all, List.filter_map]
  rfl

theorem eq_of_id_eq (distinct : roster.enrolled.Nodup) (hs : seat ∈ roster.seats)
    (ho : other ∈ roster.seats) (same : seat.subsystem.id = other.subsystem.id) : seat = other := by
  rw [enrolled, all, List.map_map] at distinct
  exact List.inj_on_of_nodup_map distinct hs ho same

end Roster

end Statline
