import Mathlib.Data.List.Basic
import Statline.Aggregator
import Statline.Proofs.Roster.History

namespace Statline

/-- A subsystem that contributes the same output to every actor. -/
structure Fixture where
  id : String
  priority : Int64
  output : Output

namespace Fixture

def subsystem (fixture : Fixture) : Subsystem :=
  Subsystem.constant fixture.id fixture.priority fixture.output

/-- What a fixture is, whatever its priority. -/
def kind (fixture : Fixture) : String × Output :=
  (fixture.id, fixture.output)

end Fixture

/-- Whether there is something in the output and nothing wrong with it. -/
def Output.counts (output : Output) : Bool :=
  !output.isEmpty && output.validate.isOk

variable {context : Context} {actor : Actor} {fixtures : List Fixture} {roster : Roster}

theorem Seat.answer_of_fixture {seat : Seat} {fixture : Fixture}
    (h : seat.subsystem = fixture.subsystem) :
    (seat.answer context actor).toOption.join = Option.guard Output.counts fixture.output := by
  have validated : seat.subsystem.validate actor = .ok () := by rw [h]; rfl
  have given : seat.subsystem.contribute seat.asked context actor =
      .ok (if fixture.output.isEmpty then none else some fixture.output) := by rw [h]; rfl
  simp only [answer, validated, given, bind, Except.bind]
  cases empty : fixture.output.isEmpty with
  | true => simp [Option.guard, Output.counts, empty, Except.toOption, pure, Except.pure]
  | false =>
    cases valid : fixture.output.validate <;>
      simp [Option.guard, Output.counts, empty, valid, Except.toOption, Except.isOk, Except.toBool,
        pure, Except.pure]

theorem filterMap_answer_of_fixtures {seats : List Seat}
    (h : seats.map (·.subsystem) = fixtures.map Fixture.subsystem) :
    seats.filterMap (fun seat => (seat.answer context actor).toOption.join) =
      (fixtures.map (·.output)).filter Output.counts := by
  induction fixtures generalizing seats with
  | nil =>
    rw [List.map_nil, List.map_eq_nil_iff] at h
    rw [h]
    rfl
  | cons fixture rest ih =>
    obtain ⟨seat, others, rfl, first, tail⟩ := List.map_eq_cons_iff.mp h
    rw [List.filterMap_cons, Seat.answer_of_fixture first, ih tail, List.map_cons,
      List.filter_cons, Option.guard]
    cases fixture.output.counts <;> rfl

namespace Roster

theorem isActive_of_fixtures (h : roster.all = fixtures.map Fixture.subsystem) {seat : Seat}
    (member : seat ∈ roster.seats) : seat.subsystem.isActive actor = true := by
  have held : seat.subsystem ∈ roster.all := List.mem_map_of_mem member
  rw [h] at held
  obtain ⟨fixture, _, same⟩ := List.mem_map.mp held
  rw [← same]
  rfl

/-- A roster of fixtures gathers their outputs, in an order that the priorities make. -/
theorem accepted_of_fixtures (h : roster.all = fixtures.map Fixture.subsystem) (context : Context)
    (actor : Actor) :
    (Aggregator.accepted (roster.answers context actor)).Perm
      ((fixtures.map (·.output)).filter Output.counts) := by
  have active : roster.seatsByPriority.filter (·.subsystem.isActive actor) =
      roster.seatsByPriority := by
    refine List.filter_eq_self.mpr fun seat member => isActive_of_fixtures h ?_
    exact (ranked_perm _ _).mem_iff.mp member
  rw [Aggregator.accepted, answers, active, List.filterMap_map, ← filterMap_answer_of_fixtures h]
  exact (ranked_perm _ _).filterMap _

/-- Registration keeps the order in which the subsystems came. -/
theorem all_of_registered {subsystems : List Subsystem} {after : Roster}
    (h : subsystems.foldlM register roster = .ok after) :
    after.all = roster.all ++ subsystems := by
  induction subsystems generalizing roster with
  | nil =>
    cases h
    exact (List.append_nil _).symm
  | cons subsystem rest ih =>
    rw [List.foldlM_cons] at h
    obtain ⟨next, registered, h⟩ := bind_eq_ok.mp h
    rw [ih h, (register_eq_ok registered).2, List.append_assoc]
    rfl

/-- The roster that comes of registering the fixtures one after the other. -/
def enlist (fixtures : List Fixture) : Except Fault Roster :=
  (fixtures.map Fixture.subsystem).foldlM register empty

theorem all_of_enlist (h : enlist fixtures = .ok roster) :
    roster.all = fixtures.map Fixture.subsystem :=
  all_of_registered h

end Roster

end Statline
