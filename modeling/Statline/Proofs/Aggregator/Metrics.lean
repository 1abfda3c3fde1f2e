import Statline.Proofs.Aggregator.History
import Statline.Proofs.Cache.Expiry

namespace Statline.Aggregator

/-- What the cache holds for the id and still serves. -/
def stored (aggregator : Aggregator) (now : Nat) (id : String) : Option Snapshot :=
  aggregator.cache.bind fun cache => ((cache.live now).get? id).map (·.value)

theorem lookup_fst (aggregator : Aggregator) (now : Nat) (actor : Actor) :
    (aggregator.lookup now actor).1 = (aggregator.stored now actor.id).filter fun snapshot =>
      !aggregator.settings.checkActorVersion || snapshot.version = actor.version := by
  obtain ⟨rules, layers, roster, cache, settings, metrics⟩ := aggregator
  cases cache with
  | none => rfl
  | some cache => exact congrArg (Option.filter _) (cache.get_fst now actor.id)

/-- One request for one actor, and the aggregator that it comes to. -/
structure Visit where
  before : Aggregator
  moment : Moment
  context : Context
  actor : Actor

namespace Visit

def result (visit : Visit) : Except Fault Snapshot :=
  (visit.before.resolveWith visit.moment visit.context visit.actor).1

def after (visit : Visit) : Aggregator :=
  (visit.before.resolveWith visit.moment visit.context visit.actor).2

/-- The context lets the request pass. -/
def isAdmitted (visit : Visit) : Bool :=
  (visit.context.check visit.moment).isOk

/-- The request is answered with the snapshot that lies in the cache. -/
def isStored (visit : Visit) : Bool :=
  visit.result.toOption.any fun snapshot =>
    visit.before.stored visit.moment.now visit.actor.id = some snapshot

/-- The request is answered, and not from the cache. -/
def isFresh (visit : Visit) : Bool :=
  visit.result.isOk && !visit.isStored

def isFailed (visit : Visit) : Bool :=
  !visit.result.isOk

/-- The snapshot with which the request is answered, if it is. -/
def returned (visit : Visit) : List Snapshot :=
  visit.result.toOption.toList

end Visit

theorem serve_cases (aggregator : Aggregator) (now : Nat) (context : Context) (actor : Actor) :
    let metrics := { aggregator.metrics with requests := aggregator.metrics.requests + 1 }
    (∃ fault, aggregator.serve now context actor = (.error fault, { aggregator with
      metrics := { metrics with failedResolutions := metrics.failedResolutions + 1 } })) ∨
    (∃ snapshot, (aggregator.lookup now actor).1 = some snapshot ∧
      (aggregator.serve now context actor).1 = .ok snapshot ∧
      (aggregator.serve now context actor).2.metrics =
        { metrics with cacheHits := metrics.cacheHits + 1 }) ∨
    ((aggregator.lookup now actor).1 = none ∧
      (aggregator.serve now context actor).1 = .ok (aggregator.fresh context actor) ∧
      ∃ skippedSubsystems, (aggregator.serve now context actor).2.metrics =
        { metrics with cacheMisses := metrics.cacheMisses + 1, skippedSubsystems }) := by
  intro metrics
  have looked :
      ({ aggregator with metrics }.lookup now actor).1 = (aggregator.lookup now actor).1 :=
    lookup_with_metrics ..
  unfold serve
  dsimp only
  split
  next => exact .inl ⟨_, rfl⟩
  next =>
    split
    next snapshot after found =>
      obtain rfl := lookup_eq found
      exact .inr (.inl ⟨snapshot, looked.symm.trans (congrArg Prod.fst found), rfl, rfl⟩)
    next after found =>
      obtain rfl := lookup_eq found
      exact .inr (.inr ⟨looked.symm.trans (congrArg Prod.fst found), rfl, _, rfl⟩)

namespace Visit

variable {visit : Visit} {snapshot : Snapshot} {fault : Fault}

theorem isFailed_of_error (h : visit.result = .error fault) :
    visit.isFailed = true ∧ visit.isStored = false ∧ visit.isFresh = false := by
  simp [isFailed, isStored, isFresh, h, Except.toOption, Except.isOk, Except.toBool]

theorem isFresh_of_ok (h : visit.result = .ok snapshot) :
    visit.isFailed = false ∧ visit.isFresh = !visit.isStored := by
  simp [isFailed, isFresh, h, Except.isOk, Except.toBool]

theorem isStored_of_lookup_eq_some (answered : visit.result = .ok snapshot)
    (found : (visit.before.lookup visit.moment.now visit.actor).1 = some snapshot) :
    visit.isStored = true := by
  rw [lookup_fst, Option.filter_eq_some_iff] at found
  simp [isStored, answered, Except.toOption, found.1]

/-- What is passed over is of another version than what is computed in its place. -/
theorem isStored_of_lookup_eq_none
    (answered : visit.result = .ok (visit.before.fresh visit.context visit.actor))
    (missed : (visit.before.lookup visit.moment.now visit.actor).1 = none) :
    visit.isStored = false := by
  rw [lookup_fst, Option.filter_eq_none_iff] at missed
  simp only [isStored, answered, Except.toOption, Option.any_some, decide_eq_false_iff_not]
  intro same
  simpa [fresh, Snapshot.compute] using missed _ same

end Visit

/-- The counters went up by what the requests account for. -/
structure Counts (visits : List Visit) (before after : Metrics) : Prop where
  requests : after.requests = before.requests + visits.countP Visit.isAdmitted
  cacheHits : after.cacheHits = before.cacheHits + visits.countP Visit.isStored
  cacheMisses : after.cacheMisses = before.cacheMisses + visits.countP Visit.isFresh
  failedResolutions :
    after.failedResolutions = before.failedResolutions + visits.countP Visit.isFailed

variable {before middle after : Metrics} {first second : List Visit}

theorem Counts.append (h : Counts first before middle) (later : Counts second middle after) :
    Counts (first ++ second) before after where
  requests := by rw [later.requests, h.requests, List.countP_append, Nat.add_assoc]
  cacheHits := by rw [later.cacheHits, h.cacheHits, List.countP_append, Nat.add_assoc]
  cacheMisses := by rw [later.cacheMisses, h.cacheMisses, List.countP_append, Nat.add_assoc]
  failedResolutions := by
    rw [later.failedResolutions, h.failedResolutions, List.countP_append, Nat.add_assoc]

theorem Counts.refl (metrics : Metrics) : Counts [] metrics metrics :=
  ⟨rfl, rfl, rfl, rfl⟩

theorem Visit.counts (visit : Visit) : Counts [visit] visit.before.metrics visit.after.metrics := by
  cases checked : visit.context.check visit.moment with
  | error fault =>
    have made : visit.before.resolveWith visit.moment visit.context visit.actor =
        (.error fault, visit.before.fail) := by
      simp [resolveWith, checked]
    have turned : visit.isAdmitted = false := by
      simp [isAdmitted, checked, Except.isOk, Except.toBool]
    have after : visit.after = visit.before.fail := congrArg Prod.snd made
    obtain ⟨failed, stored, fresh⟩ := isFailed_of_error (congrArg Prod.fst made)
    constructor <;> simp [after, fail, turned, failed, stored, fresh]
  | ok =>
    have made : visit.before.resolveWith visit.moment visit.context visit.actor =
        visit.before.serve visit.moment.now visit.context visit.actor := by
      simp [resolveWith, checked]
    have admitted : visit.isAdmitted = true := by
      simp [isAdmitted, checked, Except.isOk, Except.toBool]
    rcases serve_cases visit.before visit.moment.now visit.context visit.actor with
      ⟨fault, served⟩ | ⟨snapshot, found, result, metrics⟩ | ⟨missed, result, skipped, metrics⟩
    · have after := congrArg Prod.snd (made.trans served)
      obtain ⟨failed, stored, fresh⟩ := isFailed_of_error (congrArg Prod.fst (made.trans served))
      constructor <;> simp [Visit.after, after, admitted, failed, stored, fresh]
    · rw [← made] at result metrics
      have stored := isStored_of_lookup_eq_some result found
      obtain ⟨failed, fresh⟩ := isFresh_of_ok result
      constructor <;> simp [Visit.after, metrics, admitted, failed, stored, fresh]
    · rw [← made] at result metrics
      have stored := isStored_of_lookup_eq_none result missed
      obtain ⟨failed, fresh⟩ := isFresh_of_ok result
      constructor <;> simp [Visit.after, metrics, admitted, failed, stored, fresh]

/-- Every request is a hit, a miss or a failure, and only one of them. -/
theorem countP_ways (visits : List Visit) :
    visits.countP Visit.isStored + visits.countP Visit.isFresh + visits.countP Visit.isFailed =
      visits.length := by
  induction visits with
  | nil => rfl
  | cons visit rest ih =>
    have one : (if visit.isStored = true then 1 else 0) + (if visit.isFresh = true then 1 else 0) +
        (if visit.isFailed = true then 1 else 0) = 1 := by
      cases answered : visit.result with
      | error fault => simp [Visit.isFailed_of_error answered]
      | ok snapshot => cases stored : visit.isStored <;> simp [Visit.isFresh_of_ok answered, stored]
    simp only [List.countP_cons, List.length_cons]
    omega

/-- A request that fails leaves no trace but in the counters. -/
theorem Visit.after_of_error {visit : Visit} {fault : Fault} (h : visit.result = .error fault) :
    visit.after = { visit.before with metrics := visit.after.metrics } := by
  unfold Visit.result at h
  unfold Visit.after
  unfold resolveWith at h ⊢
  split at h
  next => rfl
  next =>
    rcases serve_cases visit.before visit.moment.now visit.context visit.actor with
      ⟨_, served⟩ | ⟨_, _, result, _⟩ | ⟨_, result, _⟩
    · rw [served]
    · cases h.symm.trans result
    · cases h.symm.trans result

/-- The requests of a batch, one by one. -/
def batchVisits (aggregator : Aggregator) (context : Context) :
    List (Moment × Actor) → List Visit
  | [] => []
  | (moment, actor) :: rest =>
    let visit : Visit := ⟨aggregator, moment, context, actor⟩
    visit :: batchVisits visit.after context rest

/-- The requests that a call makes. -/
def visits (aggregator : Aggregator) : Call → List Visit
  | .resolve moment actor => [⟨aggregator, moment, Context.empty, actor⟩]
  | .resolveWith moment context actor => [⟨aggregator, moment, context, actor⟩]
  | .resolveBatch requests => aggregator.batchVisits Context.empty requests
  | .resolveBatchWith context requests => aggregator.batchVisits context requests
  | _ => []

/-- The requests of a sequence of calls, earliest first. -/
def allVisits (start : Aggregator) : List Call → List Visit
  | [] => []
  | made :: rest => start.visits made ++ allVisits (start.call made) rest

/-- How many actors a call asks for. -/
def Call.demand : Call → Nat
  | .resolve .. | .resolveWith .. => 1
  | .resolveBatch requests | .resolveBatchWith _ requests => requests.length
  | _ => 0

def allDemand : List Call → Nat
  | [] => 0
  | made :: rest => made.demand + allDemand rest

/-- The snapshots that a call returns. -/
def returned (aggregator : Aggregator) : Call → List Snapshot
  | .resolve moment actor => (aggregator.resolve moment actor).1.toOption.toList
  | .resolveWith moment context actor =>
    (aggregator.resolveWith moment context actor).1.toOption.toList
  | .resolveBatch requests => (aggregator.resolveBatch requests).1
  | .resolveBatchWith context requests => (aggregator.resolveBatchWith context requests).1
  | _ => []

/-- The snapshots that a sequence of calls returns, earliest first. -/
def allReturned (start : Aggregator) : List Call → List Snapshot
  | [] => []
  | made :: rest => start.returned made ++ allReturned (start.call made) rest

variable (aggregator : Aggregator) (context : Context) (requests : List (Moment × Actor))
  (made : Call) (calls : List Call)

theorem counts_batchVisits :
    Counts (aggregator.batchVisits context requests) aggregator.metrics
      (aggregator.resolveBatchWith context requests).2.metrics := by
  induction requests generalizing aggregator with
  | nil => exact .refl _
  | cons request rest ih =>
    obtain ⟨moment, actor⟩ := request
    exact (Visit.counts ⟨aggregator, moment, context, actor⟩).append (ih _)

theorem flatMap_batchVisits :
    (aggregator.batchVisits context requests).flatMap Visit.returned =
      (aggregator.resolveBatchWith context requests).1 := by
  induction requests generalizing aggregator with
  | nil => rfl
  | cons request rest ih =>
    obtain ⟨moment, actor⟩ := request
    rw [batchVisits, List.flatMap_cons, ih]
    rfl

theorem length_batchVisits :
    (aggregator.batchVisits context requests).length = requests.length := by
  induction requests generalizing aggregator with
  | nil => rfl
  | cons request rest ih => exact congrArg Nat.succ (ih _)

theorem counts_call :
    Counts (aggregator.visits made) aggregator.metrics (aggregator.call made).metrics := by
  cases made with
  | resolve moment actor => exact Visit.counts ⟨aggregator, moment, Context.empty, actor⟩
  | resolveWith moment context actor => exact Visit.counts ⟨aggregator, moment, context, actor⟩
  | resolveBatch requests => exact counts_batchVisits aggregator Context.empty requests
  | resolveBatchWith context requests => exact counts_batchVisits aggregator context requests
  | cachedSnapshot now id =>
    simp only [call, cachedSnapshot]
    split <;> exact .refl _
  | invalidate id =>
    simp only [call, invalidate]
    split <;> exact .refl _
  | clearCache | change => exact .refl _

theorem flatMap_visits :
    (aggregator.visits made).flatMap Visit.returned = aggregator.returned made := by
  cases made with
  | resolve | resolveWith => exact List.append_nil _
  | resolveBatch requests => exact flatMap_batchVisits aggregator Context.empty requests
  | resolveBatchWith context requests => exact flatMap_batchVisits aggregator context requests
  | cachedSnapshot | invalidate | clearCache | change => rfl

theorem length_visits : (aggregator.visits made).length = made.demand := by
  cases made with
  | resolveBatch requests => exact length_batchVisits aggregator Context.empty requests
  | resolveBatchWith context requests => exact length_batchVisits aggregator context requests
  | _ => rfl

theorem counts_after :
    Counts (aggregator.allVisits calls) aggregator.metrics (aggregator.after calls).metrics := by
  induction calls generalizing aggregator with
  | nil => exact .refl _
  | cons made rest ih => exact (counts_call aggregator made).append (ih (aggregator.call made))

theorem flatMap_allVisits :
    (aggregator.allVisits calls).flatMap Visit.returned = aggregator.allReturned calls := by
  induction calls generalizing aggregator with
  | nil => rfl
  | cons made rest ih => rw [allVisits, List.flatMap_append, flatMap_visits, ih, allReturned]

theorem length_flatMap_returned (visits : List Visit) :
    (visits.flatMap Visit.returned).length + visits.countP Visit.isFailed = visits.length := by
  induction visits with
  | nil => rfl
  | cons visit rest ih =>
    have one : visit.returned.length + (if visit.isFailed = true then 1 else 0) = 1 := by
      unfold Visit.returned Visit.isFailed
      cases visit.result <;> rfl
    rw [List.flatMap_cons, List.length_append, List.countP_cons, List.length_cons]
    omega

theorem length_allVisits : (aggregator.allVisits calls).length = allDemand calls := by
  induction calls generalizing aggregator with
  | nil => rfl
  | cons made rest ih => rw [allVisits, List.length_append, length_visits, ih, allDemand]

/-- Whatever the calls: hits, misses and failures together count the requests, those of a batch one
by one; the failures count what was refused or left out, and what is returned counts the others;
`requests` counts what the contexts let pass, and the hits count what was answered with the snapshot
in the cache. A request that fails leaves the cache, the rules, the layers and the subsystems as
they were. -/
theorem metrics_after_requests (cache : Option (Cache Snapshot)) (settings : AggregatorSettings)
    (calls : List Call) :
    let start := { create cache with settings }
    let metrics := (start.after calls).metrics
    let visits := start.allVisits calls
    metrics.cacheHits + metrics.cacheMisses + metrics.failedResolutions = allDemand calls ∧
    (start.allReturned calls).length + metrics.failedResolutions = allDemand calls ∧
    visits.length = allDemand calls ∧
    visits.flatMap Visit.returned = start.allReturned calls ∧
    metrics.failedResolutions = visits.countP Visit.isFailed ∧
    metrics.requests = visits.countP Visit.isAdmitted ∧
    metrics.cacheHits = visits.countP Visit.isStored ∧
    (∀ visit : Visit, visit.after.metrics.cacheHits =
      visit.before.metrics.cacheHits + if visit.isStored then 1 else 0) ∧
    ∀ (visit : Visit) (fault : Fault), visit.result = .error fault →
      visit.after = { visit.before with metrics := visit.after.metrics } := by
  intro start metrics visits
  have counted : Counts visits start.metrics metrics := counts_after start calls
  have requests : metrics.requests = visits.countP Visit.isAdmitted :=
    counted.requests.trans (Nat.zero_add _)
  have hits : metrics.cacheHits = visits.countP Visit.isStored :=
    counted.cacheHits.trans (Nat.zero_add _)
  have misses : metrics.cacheMisses = visits.countP Visit.isFresh :=
    counted.cacheMisses.trans (Nat.zero_add _)
  have failures : metrics.failedResolutions = visits.countP Visit.isFailed :=
    counted.failedResolutions.trans (Nat.zero_add _)
  have all : visits.length = allDemand calls := length_allVisits start calls
  have returned : visits.flatMap Visit.returned = start.allReturned calls :=
    flatMap_allVisits start calls
  refine ⟨?_, ?_, all, returned, failures, requests, hits, fun visit => ?_,
    fun visit fault => Visit.after_of_error⟩
  · rw [hits, misses, failures, countP_ways, all]
  · rw [← returned, failures, length_flatMap_returned, all]
  · rw [visit.counts.cacheHits, List.countP_singleton]

/-- The sword is resolved, served from the cache, resolved anew for its next version, refused for
its context, and refused for a blank id. -/
example :
    ({ create (some (Cache.create 1 .allkeysLru)) with settings := ⟨"1h", true⟩ }.after
      [.resolve ⟨0, []⟩ ⟨"sword", 1⟩, .resolve ⟨1, []⟩ ⟨"sword", 1⟩, .resolve ⟨2, []⟩ ⟨"sword", 2⟩,
        .resolveBatchWith { Context.empty with deadline := some 3 }
          [(⟨3, []⟩, ⟨"sword", 2⟩), (⟨2, []⟩, ⟨"", 1⟩)]]).metrics = ⟨4, 1, 2, 0, 2⟩ := by
  decide +kernel

end Statline.Aggregator
