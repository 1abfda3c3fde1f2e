import Statline.Aggregator

namespace Statline.Aggregator

/-- A call that an aggregator can be given, or a change of what it computes with. -/
inductive Call where
  | resolve (moment : Moment) (actor : Actor)
  | resolveWith (moment : Moment) (context : Context) (actor : Actor)
  | resolveBatch (requests : List (Moment × Actor))
  | resolveBatchWith (context : Context) (requests : List (Moment × Actor))
  | cachedSnapshot (now : Nat) (id : String)
  | invalidate (id : String)
  | clearCache
  | change (rules : RuleBook) (layers : LayerPlan) (roster : Roster)

def call (aggregator : Aggregator) : Call → Aggregator
  | .resolve moment actor => (aggregator.resolve moment actor).2
  | .resolveWith moment context actor => (aggregator.resolveWith moment context actor).2
  | .resolveBatch requests => (aggregator.resolveBatch requests).2
  | .resolveBatchWith context requests => (aggregator.resolveBatchWith context requests).2
  | .cachedSnapshot now id => (aggregator.cachedSnapshot now id).2
  | .invalidate id => (aggregator.invalidate id).2
  | .clearCache => aggregator.clearCache
  | .change rules layers roster => { aggregator with rules, layers, roster }

/-- The snapshot that the aggregator would compute for the actor as it stands. -/
def fresh (aggregator : Aggregator) (context : Context) (actor : Actor) : Snapshot :=
  Snapshot.compute aggregator.rules aggregator.layers
    (accepted (aggregator.roster.answers context actor)) actor

/-- What came of the resolution of one actor. -/
structure Answer where
  now : Nat
  actor : Actor
  result : Except Fault Snapshot
  recomputed : Bool
  due : Snapshot

/-- Only a recomputation counts as a miss. -/
def answer (aggregator : Aggregator) (now : Nat) (context : Context) (actor : Actor)
    (made : Except Fault Snapshot × Aggregator) : Answer where
  now := now
  actor := actor
  result := made.1
  recomputed := aggregator.metrics.cacheMisses < made.2.metrics.cacheMisses
  due := aggregator.fresh context actor

def batchAnswers (aggregator : Aggregator) (context : Context) :
    List (Moment × Actor) → List Answer
  | [] => []
  | (moment, actor) :: rest =>
    let made := aggregator.resolveWith moment context actor
    aggregator.answer moment.now context actor made :: batchAnswers made.2 context rest

inductive Event where
  | answered (answer : Answer)
  | invalidated (id : String)
  | cleared

def events (aggregator : Aggregator) : Call → List Event
  | .resolve moment actor =>
    [.answered (aggregator.answer moment.now Context.empty actor (aggregator.resolve moment actor))]
  | .resolveWith moment context actor =>
    [.answered (aggregator.answer moment.now context actor
      (aggregator.resolveWith moment context actor))]
  | .resolveBatch requests =>
    ((aggregator.batchAnswers Context.empty requests).map .answered).reverse
  | .resolveBatchWith context requests =>
    ((aggregator.batchAnswers context requests).map .answered).reverse
  | .invalidate id => [.invalidated id]
  | .clearCache => [.cleared]
  | .cachedSnapshot _ _ | .change _ _ _ => []

def after (start : Aggregator) (calls : List Call) : Aggregator :=
  calls.foldl call start

/-- All that happens in a sequence of calls, latest first. -/
def log (start : Aggregator) : List Call → List Event
  | [] => []
  | made :: rest => log (start.call made) rest ++ start.events made

theorem resolveBatchWith_eq (aggregator : Aggregator) (context : Context)
    (requests : List (Moment × Actor)) :
    (aggregator.resolveBatchWith context requests).1 =
      (aggregator.batchAnswers context requests).filterMap (·.result.toOption) := by
  induction requests generalizing aggregator with
  | nil => rfl
  | cons request rest ih =>
    obtain ⟨moment, actor⟩ := request
    simp only [resolveBatchWith, batchAnswers, ih, answer, List.filterMap_cons]
    cases (aggregator.resolveWith moment context actor).1 <;> rfl

/-- How a request ends: it is refused, answered from the cache, or answered with a fresh snapshot
that is then offered to the cache. -/
inductive Serves (aggregator : Aggregator) (now : Nat) (context : Context) (actor : Actor) :
    Except Fault Snapshot × Aggregator → Prop
  | refused {fault : Fault} {after : Aggregator} :
      after.settings = aggregator.settings → after.cache = aggregator.cache →
      after.metrics.cacheMisses = aggregator.metrics.cacheMisses →
      Serves aggregator now context actor (.error fault, after)
  | hit {cache : Cache Snapshot} {snapshot : Snapshot} {after : Aggregator} :
      after.settings = aggregator.settings → aggregator.cache = some cache →
      (cache.get now actor.id).1 = some snapshot →
      (aggregator.settings.checkActorVersion = true → snapshot.version = actor.version) →
      after.cache = some (cache.get now actor.id).2 →
      after.metrics.cacheMisses = aggregator.metrics.cacheMisses →
      Serves aggregator now context actor (.ok snapshot, after)
  | recomputed {after : Aggregator} :
      after.settings = aggregator.settings → Text.isBlank actor.id = false →
      after.cache = aggregator.cache.map (fun cache =>
        ((cache.get now actor.id).2.set now actor.id (aggregator.fresh context actor)
          aggregator.settings.snapshotTtl).2) →
      after.metrics.cacheMisses = aggregator.metrics.cacheMisses + 1 →
      Serves aggregator now context actor (.ok (aggregator.fresh context actor), after)

theorem lookup_eq {aggregator after : Aggregator} {now : Nat} {actor : Actor}
    {found : Option Snapshot} (h : aggregator.lookup now actor = (found, after)) :
    after = { aggregator with
      cache := aggregator.cache.map fun cache => (cache.get now actor.id).2 } := by
  obtain ⟨rules, layers, roster, cache, settings, metrics⟩ := aggregator
  cases cache <;> exact (congrArg Prod.snd h).symm

theorem lookup_with_metrics (aggregator : Aggregator) (metrics : Metrics) (now : Nat)
    (actor : Actor) :
    ({ aggregator with metrics }.lookup now actor).1 = (aggregator.lookup now actor).1 := by
  obtain ⟨rules, layers, roster, cache, settings, _⟩ := aggregator
  cases cache <;> rfl

/-- Where the cache does not answer, the request counts as a miss and the actor is resolved anew. -/
theorem serve_of_lookup_eq_none {aggregator : Aggregator} {now : Nat} {context : Context}
    {actor : Actor} (named : Text.isBlank actor.id = false)
    (missed : (aggregator.lookup now actor).1 = none) :
    aggregator.serve now context actor = Prod.map .ok id (recompute { aggregator with
      cache := aggregator.cache.map fun cache => (cache.get now actor.id).2
      metrics := { aggregator.metrics with
        requests := aggregator.metrics.requests + 1
        cacheMisses := aggregator.metrics.cacheMisses + 1 } } now context actor) := by
  unfold serve
  dsimp only
  rw [if_neg (by simp [named])]
  split
  next snapshot after found =>
    cases (congrArg Prod.fst found).symm.trans ((lookup_with_metrics ..).trans missed)
  next after found =>
    obtain rfl := lookup_eq found
    rfl

theorem lookup_eq_some {aggregator after : Aggregator} {now : Nat} {actor : Actor}
    {snapshot : Snapshot} (h : aggregator.lookup now actor = (some snapshot, after)) :
    ∃ cache, aggregator.cache = some cache ∧ (cache.get now actor.id).1 = some snapshot ∧
      (aggregator.settings.checkActorVersion = true → snapshot.version = actor.version) := by
  obtain ⟨rules, layers, roster, cache, settings, metrics⟩ := aggregator
  have h := congrArg Prod.fst h
  cases cache with
  | none => cases h
  | some cache =>
    obtain ⟨got, current⟩ := Option.filter_eq_some_iff.mp h
    refine ⟨cache, rfl, got, fun checks => ?_⟩
    have checks : settings.checkActorVersion = true := checks
    simpa [checks] using current

theorem serves_serve (aggregator : Aggregator) (now : Nat) (context : Context) (actor : Actor) :
    Serves aggregator now context actor (aggregator.serve now context actor) := by
  unfold serve
  dsimp only
  split
  next => exact .refused rfl rfl rfl
  next named =>
    have named : Text.isBlank actor.id = false := by simpa using named
    split
    next snapshot after found =>
      obtain ⟨cache, hc, got, current⟩ := lookup_eq_some found
      obtain rfl := lookup_eq found
      exact .hit rfl hc got current (congrArg (Option.map _) hc) rfl
    next after found =>
      obtain rfl := lookup_eq found
      exact .recomputed rfl named (Option.map_map _ _ _) rfl

/-- Nothing but a blank id keeps an actor from being resolved. -/
theorem resolve_ok_iff (aggregator : Aggregator) (moment : Moment) (actor : Actor) :
    (∃ snapshot, (aggregator.resolve moment actor).1 = .ok snapshot) ↔
      Text.isBlank actor.id = false := by
  unfold resolve serve
  dsimp only
  split
  next blank => simp [blank]
  next named =>
    split
    next snapshot _ _ => exact ⟨fun _ => by simpa using named, fun _ => ⟨snapshot, rfl⟩⟩
    next after _ =>
      exact ⟨fun _ => by simpa using named, fun _ => ⟨after.fresh Context.empty actor, rfl⟩⟩

theorem serves_resolveWith (aggregator : Aggregator) (moment : Moment) (context : Context)
    (actor : Actor) :
    Serves aggregator moment.now context actor (aggregator.resolveWith moment context actor) := by
  unfold resolveWith
  split
  next => exact .refused rfl rfl rfl
  next => exact serves_serve aggregator moment.now context actor

end Statline.Aggregator
