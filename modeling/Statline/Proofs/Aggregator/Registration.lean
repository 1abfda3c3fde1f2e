import Statline.Proofs.Aggregator.Accounting
import Statline.Proofs.Roster.Fixtures
import Statline.Proofs.Snapshot.Agreement

namespace Statline.Aggregator

theorem lookup_eq_none_of_uncached {aggregator : Aggregator} (h : aggregator.cache = none)
    (now : Nat) (actor : Actor) : (aggregator.lookup now actor).1 = none := by
  unfold lookup cachedSnapshot
  rw [h]
  rfl

/-- Two rosters of the same fixtures gather the same outputs, whatever the order of registration
and the priorities of the fixtures. -/
theorem perm_outputs_of_fixtures {first second : Aggregator} {fixtures others : List Fixture}
    (held : first.roster.all = fixtures.map Fixture.subsystem)
    (held' : second.roster.all = others.map Fixture.subsystem)
    (same : (fixtures.map Fixture.kind).Perm (others.map Fixture.kind)) (context : Context)
    (actor : Actor) : (first.outputs context actor).Perm (second.outputs context actor) := by
  have given : (fixtures.map (·.output)).Perm (others.map (·.output)) := by
    have seconds := same.map Prod.snd
    rwa [List.map_map, List.map_map] at seconds
  have here := Roster.accepted_of_fixtures held context actor
  have there := Roster.accepted_of_fixtures held' context actor
  exact (here.trans (given.filter _)).trans there.symm

theorem untied_outputs_of_fixtures {aggregator : Aggregator} {fixtures : List Fixture}
    (held : aggregator.roster.all = fixtures.map Fixture.subsystem)
    (untied : UntiedOutputs (fixtures.map (·.output))) (context : Context) (actor : Actor) :
    UntiedOutputs (aggregator.outputs context actor) :=
  (untied.sublist List.filter_sublist).perm
    (Roster.accepted_of_fixtures held context actor).symm

/-- What is refused is refused before any subsystem is asked. -/
theorem request_eq_of_refused {first second : Aggregator} {moment : Moment}
    {context : Option Context} {actor : Actor}
    (refused : ¬((context.getD Context.empty).check moment = .ok () ∧
      Text.isBlank actor.id = false)) :
    (first.request moment context actor).1 = (second.request moment context actor).1 := by
  have unnamed (blank : Text.isBlank actor.id = true) (aggregator : Aggregator)
      (context : Context) : (aggregator.serve moment.now context actor).1 =
        .error (.invalidInput "actor ID cannot be empty") := by
    simp [serve, blank]
  cases context with
  | none =>
    have blank : Text.isBlank actor.id = true := by
      simpa using fun named => refused ⟨rfl, named⟩
    simp only [request, resolve, unnamed blank]
  | some context =>
    cases checked : context.check moment with
    | error fault => simp only [request, resolveWith, checked]
    | ok =>
      have blank : Text.isBlank actor.id = true := by
        simpa using fun named => refused ⟨checked, named⟩
      simp only [request, resolveWith, checked, unnamed blank]

/-- Where priorities decide in which order contributions and caps act, neither the order in which
the subsystems were registered nor the priorities of the subsystems show in a snapshot. A request
that fails does so alike. -/
theorem agree_of_registration (first second : Aggregator) (fixtures others : List Fixture)
    (moment : Moment) (context : Option Context) (actor : Actor)
    (rules : first.rules = second.rules) (layers : first.layers = second.layers)
    (held : first.roster.all = fixtures.map Fixture.subsystem)
    (held' : second.roster.all = others.map Fixture.subsystem)
    (same : (fixtures.map Fixture.kind).Perm (others.map Fixture.kind))
    (untied : UntiedOutputs (fixtures.map (·.output)))
    (uncached : first.cache = none) (uncached' : second.cache = none) :
    ((context.getD Context.empty).check moment = .ok () → Text.isBlank actor.id = false →
      ∃ a b, (first.request moment context actor).1 = .ok a ∧
        (second.request moment context actor).1 = .ok b ∧ Snapshot.Agree first.rules a b) ∧
    ∀ fault, (first.request moment context actor).1 = .error fault ↔
      (second.request moment context actor).1 = .error fault := by
  have missed := lookup_eq_none_of_uncached uncached moment.now actor
  have missed' := lookup_eq_none_of_uncached uncached' moment.now actor
  refine ⟨fun running named => ?_, fun fault => ?_⟩
  · refine ⟨_, _, request_of_lookup_eq_none running named missed,
      request_of_lookup_eq_none running named missed', ?_⟩
    rw [fresh, fresh, ← rules, ← layers]
    exact Snapshot.agree_compute_of_perm first.rules first.layers actor
      (perm_outputs_of_fixtures held held' same _ actor)
      (untied_outputs_of_fixtures held untied _ actor)
  · by_cases served : (context.getD Context.empty).check moment = .ok () ∧
        Text.isBlank actor.id = false
    · rw [request_of_lookup_eq_none served.1 served.2 missed,
        request_of_lookup_eq_none served.1 served.2 missed']
      simp only [reduceCtorEq]
    · rw [request_eq_of_refused served]

/-- Adds to a stat, overrides it and sets its cap. -/
def sword (priority : Int64) : Fixture where
  id := "sword"
  priority := priority
  output := ⟨[⟨"attack", .flat, 10, "sword", 0⟩, ⟨"attack", .override, 40, "sword", 3⟩], [],
    [⟨"sword", "attack", .baseline, 50, 1, .world, none, []⟩], ⟨"sword", 1⟩⟩

/-- Multiplies the stat, overrides it as well and raises the cap. -/
def ring (priority : Int64) : Fixture where
  id := "ring"
  priority := priority
  output := ⟨[⟨"attack", .mult, 3, "ring", 0⟩, ⟨"attack", .override, 70, "ring", 9⟩], [],
    [⟨"ring", "attack", .additive, 15, 0, .world, none, []⟩], ⟨"ring", 1⟩⟩

/-- They are registered in either order, and the one that comes first is also asked first. -/
theorem agree_of_sword_and_ring :
    ∃ first second, Roster.enlist [sword 5, ring 2] = .ok first ∧
      Roster.enlist [ring 7, sword 5] = .ok second ∧
      UntiedOutputs [(sword 5).output, (ring 2).output] ∧
      Text.isBlank hero.id = false ∧
      ∃ a b, ({ create none with roster := first }.request ⟨0, []⟩ none hero).1 = .ok a ∧
        ({ create none with roster := second }.request ⟨0, []⟩ none hero).1 = .ok b ∧
        Snapshot.Agree RuleBook.empty a b := by
  have taken : (Roster.enlist [sword 5, ring 2]).isOk = true := by decide +kernel
  have taken' : (Roster.enlist [ring 7, sword 5]).isOk = true := by decide +kernel
  obtain ⟨first, made⟩ := exists_of_isOk taken
  obtain ⟨second, made'⟩ := exists_of_isOk taken'
  have untied : UntiedOutputs [(sword 5).output, (ring 2).output] :=
    ⟨by decide +kernel, by decide +kernel, by decide +kernel⟩
  have named : Text.isBlank hero.id = false := by decide +kernel
  refine ⟨first, second, made, made', untied, named, ?_⟩
  have agree := agree_of_registration { create none with roster := first }
    { create none with roster := second } [sword 5, ring 2] [ring 7, sword 5] ⟨0, []⟩ none hero
    rfl rfl (Roster.all_of_enlist made) (Roster.all_of_enlist made') (.swap _ _ []) untied rfl rfl
  exact agree.1 rfl named

end Statline.Aggregator
