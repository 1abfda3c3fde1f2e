import Statline.Proofs.Aggregator.Accounting
import Statline.Proofs.Roster.Idle

namespace Statline.Aggregator

variable {aggregator second : Aggregator} {context : Context} {actor : Actor}

theorem skippedSubsystems_request {moment : Moment} {context : Option Context}
    (running : (context.getD Context.empty).check moment = .ok ())
    (named : Text.isBlank actor.id = false)
    (missed : (aggregator.lookup moment.now actor).1 = none) :
    (aggregator.request moment context actor).2.metrics.skippedSubsystems =
      aggregator.metrics.skippedSubsystems + aggregator.roster.seats.countP fun seat =>
        seat.subsystem.isActive actor && seat.fails (context.getD Context.empty) actor := by
  rw [← Roster.countP_answers, request_eq_serve running, serve_of_lookup_eq_none named missed]
  rfl

/-- A subsystem that is not active, fails or contributes nothing might as well not be registered:
whichever ids such subsystems have, an actor that is resolved anew is given the same snapshot once
all of these have been dismissed, and each active one that fails is counted as skipped. The count
of earlier questions may differ between the two rosters. -/
theorem unaffected_by_idle (aggregator : Aggregator) (calls : List Roster.Call) (moment : Moment)
    (context : Option Context) (actor : Actor) (ids : List String)
    (held : aggregator.roster.all = (Roster.after calls).all)
    (steady : ∀ subsystem ∈ aggregator.roster.all, subsystem.Steady)
    (distinct : ids.Nodup)
    (idle : ∀ id, id ∈ ids ↔ ∃ seat ∈ aggregator.roster.seats, seat.subsystem.id = id ∧
      seat.isIdle (context.getD Context.empty) actor = true)
    (running : (context.getD Context.empty).check moment = .ok ())
    (named : Text.isBlank actor.id = false)
    (missed : (aggregator.lookup moment.now actor).1 = none) :
    ∃ snapshot, (aggregator.request moment context actor).1 = .ok snapshot ∧
      (aggregator.request moment context actor).2.metrics.skippedSubsystems =
        aggregator.metrics.skippedSubsystems + aggregator.roster.seats.countP (fun seat =>
          seat.subsystem.isActive actor && seat.fails (context.getD Context.empty) actor) ∧
      ∀ roster : Roster, roster.all = aggregator.roster.all →
        ∃ trimmed, ids.foldlM Roster.dismiss roster = .ok trimmed ∧
          ∀ (second : Aggregator) (later : Moment),
            second.rules = aggregator.rules → second.layers = aggregator.layers →
            second.roster.all = trimmed.all →
            (context.getD Context.empty).check later = .ok () →
            (second.lookup later.now actor).1 = none →
              (second.request later context actor).1 = .ok snapshot := by
  have apart : aggregator.roster.enrolled.Nodup := by
    rw [Roster.enrolled, held]
    exact Roster.nodup_enrolled_after calls
  refine ⟨_, request_of_lookup_eq_none running named missed,
    skippedSubsystems_request running named missed, fun roster same => ?_⟩
  have enrolled : ∀ id ∈ ids, id ∈ roster.enrolled := by
    intro id member
    obtain ⟨seat, sits, known, _⟩ := (idle id).mp member
    rw [Roster.enrolled, same]
    exact Roster.mem_enrolled.mpr ⟨seat, sits, known⟩
  obtain ⟨trimmed, dismissed, all⟩ := Roster.all_of_dismissed distinct enrolled
  refine ⟨trimmed, dismissed, fun second later rules layers left running missed => ?_⟩
  have gathered : accepted (second.roster.answers (context.getD Context.empty) actor) =
      accepted (aggregator.roster.answers (context.getD Context.empty) actor) := by
    have idles : ∀ seat ∈ aggregator.roster.seats, seat.subsystem.id ∈ ids →
        seat.isIdle (context.getD Context.empty) actor = true := by
      intro seat sits listed
      obtain ⟨other, sits', known, idles⟩ := (idle _).mp listed
      exact Roster.eq_of_id_eq apart sits' sits known ▸ idles
    refine Roster.accepted_of_left steady idles ?_
    rw [left, all, same]
  rw [request_of_lookup_eq_none running named missed, fresh, fresh, rules, layers, gathered]

/-- Answers every question alike. -/
def subject (id : String) (priority : Int64) (isActive : Bool) (valid : Except Fault Unit)
    (answer : Except Fault (Option Output)) : Subsystem :=
  ⟨id, priority, fun _ => isActive, fun _ => valid, fun _ _ _ => answer⟩

def boost (system : String) (value : Float) : Output :=
  ⟨[⟨"attack", .flat, value, system, 0⟩], [], [], ⟨system, 1⟩⟩

/-- One sound subsystem between five that add nothing, each for a reason of its own. -/
def misfits : List Roster.Call :=
  [.register (subject "curse" 9 true (.error .cancelled) (.ok (some (boost "curse" 1)))),
    .register (subject "ghost" 8 false (.ok ()) (.ok (some (boost "ghost" 2)))),
    .register (subject "sword" 5 true (.ok ()) (.ok (some (boost "sword" 40)))),
    .register (subject "oracle" 5 true (.ok ()) (.error (.subsystemFailed "oracle" "asleep"))),
    .register (subject "scroll" 3 true (.ok ()) (.ok none)),
    .register (subject "rune" 1 true (.ok ()) (.ok (some (boost "rune" (0.0 / 0.0)))))]

def troubled : Aggregator :=
  { create none with roster := Roster.after misfits }

theorem unaffected_by_misfits :
    ∃ snapshot, (troubled.request ⟨0, []⟩ none hero).1 = .ok snapshot ∧
      (troubled.request ⟨0, []⟩ none hero).2.metrics.skippedSubsystems = 3 ∧
      ∃ trimmed, ["rune", "scroll", "oracle", "ghost", "curse"].foldlM Roster.dismiss
          troubled.roster = .ok trimmed ∧
        ({ troubled with roster := trimmed }.request ⟨1, []⟩ none hero).1 = .ok snapshot := by
  have steady : ∀ subsystem ∈ troubled.roster.all, subsystem.Steady := by
    have all : troubled.roster.all = misfits.filterMap fun made =>
        match made with
        | .register subsystem => some subsystem
        | _ => none := by
      rfl
    rw [all]
    simp [misfits, subject, Subsystem.Steady]
  have idle (id : String) : id ∈ ["rune", "scroll", "oracle", "ghost", "curse"] ↔
      ∃ seat ∈ troubled.roster.seats,
        seat.subsystem.id = id ∧ seat.isIdle Context.empty hero = true := by
    have found : ((troubled.roster.seats.filter (·.isIdle Context.empty hero)).map
        (·.subsystem.id)).reverse = ["rune", "scroll", "oracle", "ghost", "curse"] := by
      decide +kernel
    rw [← found, List.mem_reverse, List.mem_map]
    constructor
    · rintro ⟨seat, member, known⟩
      exact ⟨seat, (List.mem_filter.mp member).1, known, (List.mem_filter.mp member).2⟩
    · rintro ⟨seat, sits, known, idles⟩
      exact ⟨seat, List.mem_filter.mpr ⟨sits, idles⟩, known⟩
  have named : Text.isBlank hero.id = false := by decide +kernel
  have counted : (troubled.roster.seats.countP fun seat =>
      seat.subsystem.isActive hero && seat.fails Context.empty hero) = 3 := by
    decide +kernel
  obtain ⟨snapshot, resolved, skipped, same⟩ := unaffected_by_idle troubled misfits ⟨0, []⟩ none
    hero _ rfl steady (by decide) idle rfl named rfl
  obtain ⟨trimmed, dismissed, alike⟩ := same troubled.roster rfl
  exact ⟨snapshot, resolved, skipped.trans (congrArg _ counted), trimmed, dismissed,
    alike _ ⟨1, []⟩ rfl rfl rfl rfl rfl⟩

end Statline.Aggregator
