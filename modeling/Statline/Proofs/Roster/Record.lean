import Statline.Proofs.Roster.History
import Statline.Proofs.Standing

namespace Statline.Roster

/-- What a change answers: the subsystem that it takes out, if any. -/
def answer (roster : Roster) : Call → Except Fault (Option Subsystem)
  | .register subsystem => (roster.register subsystem).map fun _ => none
  | .unregister id => (roster.unregister id).map fun removed => some removed.1
  | .clear => .ok none

def Call.move : Call → Move Subsystem
  | .register subsystem => .added subsystem
  | .unregister id => .removed id
  | .clear => .cleared

/-- The changes that are accepted, earliest first. -/
def accepted (roster : Roster) : List Call → List (Move Subsystem)
  | [] => []
  | made :: rest =>
    if (roster.answer made).isOk then made.move :: accepted (roster.call made) rest
    else accepted (roster.call made) rest

variable {roster next : Roster} {subsystem : Subsystem} {id : String} {made : Call}
  {fault : Fault} {moves : List (Move Subsystem)}

theorem answer_register (roster : Roster) (subsystem : Subsystem) :
    roster.answer (.register subsystem) =
      if Text.isBlank subsystem.id then .error (.invalidInput "subsystem ID cannot be empty")
      else if roster.contains subsystem.id then .error (.duplicateSubsystem subsystem.id)
      else .ok none := by
  change (roster.register subsystem).map _ = _
  unfold register
  split
  next => rfl
  next => split <;> rfl

theorem answer_unregister (roster : Roster) (id : String) :
    roster.answer (.unregister id) =
      match roster.get? id with
      | some subsystem => .ok (some subsystem)
      | none => .error (.subsystemNotFound id) := by
  change (roster.unregister id).map _ = _
  unfold unregister
  cases roster.get? id <;> rfl

theorem call_of_error (h : roster.answer made = .error fault) : roster.call made = roster := by
  cases made with
  | register subsystem =>
    cases registered : roster.register subsystem with
    | ok next => rw [answer, registered] at h; cases h
    | error other => rw [call, registered]; rfl
  | unregister id =>
    cases removed : roster.unregister id with
    | ok pair => rw [answer, removed] at h; cases h
    | error other => rw [call, dismiss, removed]; rfl
  | clear => cases h

theorem all_filter (roster : Roster) (id : String) :
    all ⟨roster.seats.filter (·.subsystem.id ≠ id)⟩ = roster.all.filter (·.id ≠ id) := by
  rw [all, all, List.filter_map]
  rfl

/-- What an accepted change does to the subsystems. -/
theorem all_call_of_ok (h : (roster.answer made).isOk = true) :
    (roster.call made).all =
      roster.all.filter (fun subsystem => !made.move.ends subsystem.id) ++ made.move.brings := by
  cases made with
  | register subsystem =>
    cases registered : roster.register subsystem with
    | ok next =>
      have called : roster.call (.register subsystem) = next := by rw [call, registered]; rfl
      rw [called]
      simpa [Call.move, Move.ends, Move.brings] using (register_eq_ok registered).2
    | error other => rw [answer, registered] at h; cases h
  | unregister id =>
    cases removed : roster.unregister id with
    | ok pair =>
      have dismissed : roster.dismiss id = .ok pair.2 := by rw [dismiss, removed]; rfl
      have left : pair.2 = ⟨roster.seats.filter (·.subsystem.id ≠ id)⟩ := dismiss_eq_ok dismissed
      have called : roster.call (.unregister id) = pair.2 := by rw [call, dismissed]; rfl
      rw [called, left]
      simpa [Call.move, Move.ends, Move.brings, eq_comm] using all_filter roster id
    | error other => rw [answer, removed] at h; cases h
  | clear => simp [call, empty, all, Call.move, Move.ends, Move.brings]

/-- By induction on the changes, from any roster that earlier ones account for. -/
theorem all_foldl_call (h : roster.all = standing (·.id) moves) (calls : List Call) :
    (calls.foldl call roster).all = standing (·.id) (moves ++ roster.accepted calls) := by
  induction calls generalizing roster moves with
  | nil => rw [accepted, List.append_nil]; exact h
  | cons made rest ih =>
    rw [List.foldl_cons, accepted]
    cases answered : roster.answer made with
    | error fault =>
      rw [call_of_error answered]
      exact ih h
    | ok taken =>
      have done : (roster.answer made).isOk = true := by rw [answered]; rfl
      have next : (roster.call made).all = standing (·.id) (moves ++ [made.move]) := by
        rw [all_call_of_ok done, standing_concat, h]
      rw [Except.isOk, Except.toBool, if_pos rfl, List.append_cons]
      exact ih next

theorem all_after (calls : List Call) :
    (after calls).all = standing (·.id) (empty.accepted calls) := by
  have start : empty.all = standing (·.id) [] := rfl
  exact all_foldl_call start calls

theorem get?_eq_find? (roster : Roster) (id : String) :
    roster.get? id = roster.all.find? (·.id = id) := by
  rw [all, List.find?_map]
  rfl

theorem contains_eq_isSome (roster : Roster) (id : String) :
    roster.contains id = (roster.get? id).isSome := by
  rw [get?, Option.isSome_map, Bool.eq_iff_iff, seat?, List.find?_isSome, contains,
    List.any_eq_true]

theorem mem_byPriorityRange {low high : Int64} :
    subsystem ∈ roster.byPriorityRange low high ↔
      subsystem ∈ roster.byPriority ∧ low ≤ subsystem.priority ∧ subsystem.priority ≤ high := by
  simp [byPriorityRange]

end Statline.Roster
