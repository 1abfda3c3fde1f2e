import Statline.Proofs.Aggregator.History
import Statline.Proofs.Double.Overflow
import Statline.Proofs.Ranking
import Statline.Proofs.Roster.Accepted
import Statline.Proofs.Snapshot.Finiteness

namespace Statline.Aggregator

variable {aggregator : Aggregator} {context : Context} {actor : Actor}

/-- Resolves an actor, within a context if there is one. -/
def request (aggregator : Aggregator) (moment : Moment) (context : Option Context)
    (actor : Actor) : Except Fault Snapshot × Aggregator :=
  match context with
  | none => aggregator.resolve moment actor
  | some context => aggregator.resolveWith moment context actor

/-- What the subsystems contribute to an actor, outputs that are not valid left out. -/
def outputs (aggregator : Aggregator) (context : Context) (actor : Actor) : List Output :=
  accepted (aggregator.roster.answers context actor)

/-- A request that its context lets pass is served, within the empty context if it has none. -/
theorem request_eq_serve {moment : Moment} {context : Option Context}
    (running : (context.getD Context.empty).check moment = .ok ()) :
    aggregator.request moment context actor =
      aggregator.serve moment.now (context.getD Context.empty) actor := by
  cases context with
  | none => rfl
  | some context =>
    have running : context.check moment = .ok () := running
    simp only [request, resolveWith, running, Option.getD_some]

theorem request_of_lookup_eq_none {moment : Moment} {context : Option Context}
    (running : (context.getD Context.empty).check moment = .ok ())
    (named : Text.isBlank actor.id = false)
    (missed : (aggregator.lookup moment.now actor).1 = none) :
    (aggregator.request moment context actor).1 =
      .ok (aggregator.fresh (context.getD Context.empty) actor) := by
  rw [request_eq_serve running, serve_of_lookup_eq_none named missed]
  rfl

theorem accounts_fresh (ruled : aggregator.rules.validate = .ok ()) (context : Context)
    (actor : Actor) :
    Snapshot.Accounts aggregator.rules
      (aggregator.layers.effectiveCaps (aggregator.outputs context actor))
      (aggregator.outputs context actor) (aggregator.fresh context actor) :=
  Snapshot.accounts_compute aggregator.layers actor ruled fun _ => isFinite_of_mem_capsOf

/-- When an actor is resolved anew, the ranges in use account for every value of its snapshot,
whatever the subsystems contribute and whatever comes of combining it. -/
theorem accounts_of_recompute (aggregator : Aggregator) (changes : List RuleBook.Call)
    (moment : Moment) (context : Option Context) (actor : Actor)
    (ruled : aggregator.rules = RuleBook.after changes)
    (running : (context.getD Context.empty).check moment = .ok ())
    (named : Text.isBlank actor.id = false)
    (missed : (aggregator.lookup moment.now actor).1 = none) :
    ∃ snapshot, (aggregator.request moment context actor).1 = .ok snapshot ∧
      Snapshot.Accounts aggregator.rules
        (aggregator.layers.effectiveCaps
          (aggregator.outputs (context.getD Context.empty) actor))
        (aggregator.outputs (context.getD Context.empty) actor) snapshot := by
  refine ⟨_, request_of_lookup_eq_none running named missed, accounts_fresh ?_ _ actor⟩
  rw [ruled]
  exact RuleBook.validate_after changes

def equippedRules : List RuleBook.Call :=
  [.set "health" ⟨false, some .sum, Rule.defaultClamp⟩, .set "mana" Rule.standard]

/-- An aggregator with one subsystem. The sum for health is not a finite number; health and mana
have the clamps of their rules, and stamina has no range of its own. -/
def equipped (caps : List CapContribution) : Aggregator :=
  let add (dimension : String) (value : Float) : Contribution :=
    ⟨dimension, .flat, value, "gear", 0⟩
  let gear : Output :=
    ⟨[add "health" 1.5e308, add "health" 1.5e308, add "stamina" 7], [add "mana" 2e6], caps,
      ⟨"gear", 1⟩⟩
  { create none with
    rules := RuleBook.after equippedRules
    roster := ⟨[⟨Subsystem.constant "gear" 0 gear, 0⟩]⟩ }

def gearCap (dimension : String) (mode : CapMode) (value : Float) (priority : Int64) :
    CapContribution :=
  ⟨"gear", dimension, mode, value, priority, .world, none, []⟩

def hero : Actor := ⟨"hero", 1⟩

/-- The caps for health, the second of which is added to the first. -/
def healthCaps : List CapContribution :=
  [gearCap "health" .baseline 100 1, gearCap "health" .additive 20 0]

def cappedHealth : Aggregator := equipped healthCaps

/-- Health ends at the sum of its caps, mana at the upper bound of its rule, and stamina stays as it
is. -/
def heroSnapshot : Snapshot where
  actorId := "hero"
  primary := Table.ofList [("health", 120), ("stamina", 7)]
  derived := Table.ofList [("mana", 1e6)]
  capsUsed := Table.ofList [("health", ⟨120, 120⟩), ("mana", ⟨0, 1e6⟩)]
  version := 1

theorem capsOf_cappedHealth : capsOf (cappedHealth.outputs Context.empty hero) = healthCaps := by
  decide +kernel

theorem effectiveCaps_cappedHealth :
    cappedHealth.layers.effectiveCaps (cappedHealth.outputs Context.empty hero) =
      Table.ofList [("health", ⟨120, 120⟩)] := by
  have descending : healthCaps.Pairwise fun a b => b.priority ≤ a.priority := by decide
  simp only [LayerPlan.effectiveCaps, LayerPlan.layerCaps, capsOf_cappedHealth, Layer.caps,
    ranked_filter, ranked_of_pairwise descending]
  decide +kernel

theorem request_cappedHealth : (cappedHealth.request ⟨0, []⟩ none hero).1 = .ok heroSnapshot := by
  have fresh : cappedHealth.fresh Context.empty hero = heroSnapshot := by
    have effective := effectiveCaps_cappedHealth
    rw [outputs] at effective
    rw [Aggregator.fresh, Snapshot.compute, effective]
    decide +kernel
  rw [request_of_lookup_eq_none rfl (by decide +kernel) rfl, Option.getD_none, fresh]

theorem accounts_of_cappedHealth :
    Text.isBlank hero.id = false ∧ (cappedHealth.lookup 0 hero).1 = none ∧
      Snapshot.Accounts cappedHealth.rules
        (cappedHealth.layers.effectiveCaps (cappedHealth.outputs Context.empty hero))
        (cappedHealth.outputs Context.empty hero) heroSnapshot := by
  have named : Text.isBlank hero.id = false := by decide +kernel
  obtain ⟨snapshot, resolved, accounts⟩ :=
    accounts_of_recompute cappedHealth equippedRules ⟨0, []⟩ none hero rfl rfl named rfl
  cases request_cappedHealth.symm.trans resolved
  exact ⟨named, rfl, accounts⟩

/-- When an actor is resolved anew, its snapshot is finite just if the effective caps are, which
only a cap that takes a finite bound beyond the finite numbers can prevent. -/
theorem finite_of_recompute (aggregator : Aggregator) (changes : List RuleBook.Call)
    (moment : Moment) (context : Option Context) (actor : Actor)
    (ruled : aggregator.rules = RuleBook.after changes)
    (running : (context.getD Context.empty).check moment = .ok ())
    (named : Text.isBlank actor.id = false)
    (missed : (aggregator.lookup moment.now actor).1 = none) :
    ∃ snapshot, (aggregator.request moment context actor).1 = .ok snapshot ∧
      (snapshot.Finite ↔
        (aggregator.layers.effectiveCaps
          (aggregator.outputs (context.getD Context.empty) actor)).Every
            fun _ range => range.Bounds (·.isFinite = true)) ∧
      ((∀ cap ∈ capsOf (aggregator.outputs (context.getD Context.empty) actor),
        cap.mode = .additive → ∀ bound : Float,
          bound.isFinite = true → (bound + cap.value).isFinite = true) →
        snapshot.Finite) := by
  have valid : aggregator.rules.validate = .ok () := ruled ▸ RuleBook.validate_after changes
  have same := (accounts_fresh valid (context.getD Context.empty) actor).finite_iff valid
  refine ⟨_, request_of_lookup_eq_none running named missed, same, fun sums => same.mpr ?_⟩
  exact aggregator.layers.every_finite_effectiveCaps (fun _ => isFinite_of_mem_capsOf) sums

theorem finite_of_cappedHealth :
    Text.isBlank hero.id = false ∧ (cappedHealth.lookup 0 hero).1 = none ∧
      heroSnapshot.Finite := by
  have named : Text.isBlank hero.id = false := by decide +kernel
  have sums : ∀ cap ∈ healthCaps, cap.mode = .additive → ∀ bound : Float,
      bound.isFinite = true → (bound + cap.value).isFinite = true := by
    intro cap member additive bound finite
    obtain rfl | rfl : cap = gearCap "health" .baseline 100 1 ∨
        cap = gearCap "health" .additive 20 0 := by simpa [healthCaps] using member
    · cases additive
    · have small : |Double.toRat 20| < 2 ^ (970 : ℤ) := by decide +kernel
      exact Double.isFinite_add finite rfl small
  obtain ⟨snapshot, resolved, _, finite⟩ :=
    finite_of_recompute cappedHealth equippedRules ⟨0, []⟩ none hero rfl rfl named rfl
  cases request_cappedHealth.symm.trans resolved
  rw [Option.getD_none, capsOf_cappedHealth] at finite
  exact ⟨named, rfl, finite sums⟩

/-- Caps of ordinary size can be added up without leaving the finite numbers. -/
theorem finite_fresh_of_small (ruled : aggregator.rules.validate = .ok ())
    (small : ∀ cap ∈ capsOf (aggregator.outputs context actor),
      cap.mode = .additive → |Double.toRat cap.value| < 2 ^ (970 : ℤ)) :
    (aggregator.fresh context actor).Finite := by
  refine ((accounts_fresh ruled context actor).finite_iff ruled).mpr ?_
  refine aggregator.layers.every_finite_effectiveCaps (fun _ => isFinite_of_mem_capsOf) ?_
  intro cap member additive bound finite
  exact Double.isFinite_add finite (isFinite_of_mem_capsOf member) (small cap member additive)

/-- Two caps on one dimension of one layer, the second of which is added to the first. -/
def doubledCap : List CapContribution :=
  [gearCap "stamina" .baseline 1.5e308 1, gearCap "stamina" .additive 1.5e308 0]

theorem get?_effectiveCaps_doubledCap :
    ((equipped doubledCap).layers.effectiveCaps
      ((equipped doubledCap).outputs Context.empty hero)).get? "stamina" =
        some (Caps.fixed (1.0 / 0.0)) := by
  have caps : capsOf ((equipped doubledCap).outputs Context.empty hero) = doubledCap := by
    decide +kernel
  have descending : doubledCap.Pairwise fun a b => b.priority ≤ a.priority := by decide
  simp only [LayerPlan.get?_effectiveCaps, caps, Layer.get?_caps, ranked_filter,
    ranked_of_pairwise descending]
  decide +kernel

/-- Finite caps that are added up can leave the finite numbers, and take a finite value along. -/
theorem not_finite_of_doubledCap :
    ∃ snapshot, ((equipped doubledCap).request ⟨0, []⟩ none hero).1 = .ok snapshot ∧
      snapshot.primary.get? "stamina" = some (1.0 / 0.0) ∧ ¬snapshot.Finite := by
  have valid : (equipped doubledCap).rules.validate = .ok () := RuleBook.validate_after _
  have accounts := accounts_fresh valid Context.empty hero
  have used := accounts.used "stamina"
  rw [get?_effectiveCaps_doubledCap, Option.some_or] at used
  obtain ⟨value, held, rfl, _⟩ := accounts.primary.clamped "stamina" (by decide +kernel) _ used
  have infinite : (Caps.fixed (1.0 / 0.0)).clamp (Snapshot.raw (equipped doubledCap).rules
      (((equipped doubledCap).outputs Context.empty hero).flatMap (·.primary)) "stamina") =
        1.0 / 0.0 := by
    decide +kernel
  rw [infinite] at held
  refine ⟨_, request_of_lookup_eq_none rfl (by decide +kernel) rfl, held, fun finite => ?_⟩
  exact absurd (finite.primary "stamina" _ held) (by decide +kernel)

end Statline.Aggregator
