import Statline.Cache
import Statline.Roster
import Statline.Snapshot.Compute

namespace Statline

structure AggregatorSettings where
  snapshotTtl : String
  /-- A cached snapshot of another version of the actor is not served. -/
  checkActorVersion : Bool
deriving DecidableEq

namespace AggregatorSettings

def defaultTtl : String := "1h"

def standard : AggregatorSettings := ⟨defaultTtl, false⟩

def validate (settings : AggregatorSettings) : Except Fault Unit := do
  let _ ← Ttl.parse settings.snapshotTtl

end AggregatorSettings

/-- What has been asked of an aggregator so far. No count is taken to reach 2^64. -/
structure Metrics where
  requests : Nat
  cacheHits : Nat
  cacheMisses : Nat
  skippedSubsystems : Nat
  failedResolutions : Nat
deriving DecidableEq

/-- Resolves actors to snapshots and keeps these in its cache, if it has one. -/
structure Aggregator where
  rules : RuleBook
  layers : LayerPlan
  roster : Roster
  cache : Option (Cache Snapshot)
  settings : AggregatorSettings
  metrics : Metrics

namespace Aggregator

def create (cache : Option (Cache Snapshot)) : Aggregator :=
  ⟨RuleBook.empty, LayerPlan.standard, Roster.empty, cache, AggregatorSettings.standard,
    ⟨0, 0, 0, 0, 0⟩⟩

def configure (aggregator : Aggregator) (settings : AggregatorSettings) :
    Except Fault Aggregator := do
  settings.validate
  return { aggregator with settings }

def validate (aggregator : Aggregator) : Except Fault Unit := do
  aggregator.settings.validate
  aggregator.rules.validate
  aggregator.layers.validate

def fail (aggregator : Aggregator) : Aggregator :=
  { aggregator with metrics.failedResolutions := aggregator.metrics.failedResolutions + 1 }

def cachedSnapshot (aggregator : Aggregator) (now : Nat) (id : String) :
    Option Snapshot × Aggregator :=
  match aggregator.cache with
  | none => (none, aggregator)
  | some cache =>
    let (found, cache) := cache.get now id
    (found, { aggregator with cache := some cache })

/-- The cached snapshot of the actor, unless it is of another version and versions count. -/
def lookup (aggregator : Aggregator) (now : Nat) (actor : Actor) : Option Snapshot × Aggregator :=
  let (found, aggregator) := aggregator.cachedSnapshot now actor.id
  let current (snapshot : Snapshot) :=
    !aggregator.settings.checkActorVersion || snapshot.version = actor.version
  (found.filter current, aggregator)

/-- Puts a snapshot into the cache; that the cache refuses it is no failure. -/
def store (aggregator : Aggregator) (now : Nat) (snapshot : Snapshot) : Aggregator :=
  { aggregator with
    cache := aggregator.cache.map fun cache =>
      (cache.set now snapshot.actorId snapshot aggregator.settings.snapshotTtl).2 }

def accepted (answers : List (Except Fault (Option Output))) : List Output :=
  answers.filterMap fun answer => answer.toOption.join

/-- Asks the subsystems and computes the snapshot; a subsystem that fails is skipped. -/
def recompute (aggregator : Aggregator) (now : Nat) (context : Context) (actor : Actor) :
    Snapshot × Aggregator :=
  let answers := aggregator.roster.answers context actor
  let snapshot := Snapshot.compute aggregator.rules aggregator.layers (accepted answers) actor
  let skipped := answers.countP fun answer => !answer.isOk
  (snapshot, store
    { aggregator with
      roster := aggregator.roster.afterAsking actor
      metrics.skippedSubsystems := aggregator.metrics.skippedSubsystems + skipped }
    now snapshot)

/-- The clock is taken to stand still while a request is served: what the cache holds for the actor
expires, room is made and the new snapshot is stored at one instant. -/
def serve (aggregator : Aggregator) (now : Nat) (context : Context) (actor : Actor) :
    Except Fault Snapshot × Aggregator :=
  let aggregator := { aggregator with metrics.requests := aggregator.metrics.requests + 1 }
  if Text.isBlank actor.id then (.error (.invalidInput "actor ID cannot be empty"), aggregator.fail)
  else
    match aggregator.lookup now actor with
    | (some snapshot, aggregator) =>
      (.ok snapshot, { aggregator with metrics.cacheHits := aggregator.metrics.cacheHits + 1 })
    | (none, aggregator) =>
      let (snapshot, aggregator) := recompute
        { aggregator with metrics.cacheMisses := aggregator.metrics.cacheMisses + 1 }
        now context actor
      (.ok snapshot, aggregator)

def resolve (aggregator : Aggregator) (moment : Moment) (actor : Actor) :
    Except Fault Snapshot × Aggregator :=
  aggregator.serve moment.now Context.empty actor

/-- A cancelled or late request fails before it counts as one. -/
def resolveWith (aggregator : Aggregator) (moment : Moment) (context : Context) (actor : Actor) :
    Except Fault Snapshot × Aggregator :=
  match context.check moment with
  | .error fault => (.error fault, aggregator.fail)
  | .ok () => aggregator.serve moment.now context actor

/-- Resolves the actors one by one, each at a moment of its own; those that fail are left out. -/
def resolveBatchWith (aggregator : Aggregator) (context : Context) :
    List (Moment × Actor) → List Snapshot × Aggregator
  | [] => ([], aggregator)
  | (moment, actor) :: rest =>
    let (result, aggregator) := aggregator.resolveWith moment context actor
    let (snapshots, aggregator) := resolveBatchWith aggregator context rest
    (result.toOption.toList ++ snapshots, aggregator)

def resolveBatch (aggregator : Aggregator) (requests : List (Moment × Actor)) :
    List Snapshot × Aggregator :=
  aggregator.resolveBatchWith Context.empty requests

/-- Drops the cached snapshot of an actor, if there is one. -/
def invalidate (aggregator : Aggregator) (id : String) : Bool × Aggregator :=
  match aggregator.cache.map (Cache.delete · id) with
  | some (.ok cache) => (true, { aggregator with cache := some cache })
  | _ => (false, aggregator)

def clearCache (aggregator : Aggregator) : Aggregator :=
  { aggregator with cache := aggregator.cache.map Cache.clear }

end Aggregator

end Statline
