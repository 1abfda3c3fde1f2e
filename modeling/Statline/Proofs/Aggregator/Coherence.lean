import Statline.Proofs.Aggregator.History
import Statline.Proofs.Cache.Holds

namespace Statline.Aggregator

/-- The latest recomputation for an id, unless the id was invalidated or the cache cleared since. -/
def lastComputed (id : String) : List Event → Option Answer
  | [] => none
  | .answered answer :: earlier =>
    if answer.recomputed ∧ answer.actor.id = id then some answer else lastComputed id earlier
  | .invalidated other :: earlier => if other = id then none else lastComputed id earlier
  | .cleared :: _ => none

/-- A snapshot that is returned is due, or it is that of the latest recomputation and its time to
live is not over. -/
def Answer.Coherent (settings : AggregatorSettings) (earlier : List Event) (answer : Answer) :
    Prop :=
  ∀ snapshot, answer.result = .ok snapshot →
    snapshot.actorId = answer.actor.id ∧
    (settings.checkActorVersion = true → snapshot.version = answer.actor.version) ∧
    ((answer.recomputed = true ∧ snapshot = answer.due ∧ snapshot.version = answer.actor.version) ∨
      (answer.recomputed = false ∧ ∃ source nanos,
        lastComputed answer.actor.id earlier = some source ∧ source.result = .ok snapshot ∧
        Ttl.parse settings.snapshotTtl = .ok nanos ∧ answer.now < source.now + nanos))

/-- Every answer of a log, latest first, is coherent with what happened before it. -/
def Coherent (settings : AggregatorSettings) : List Event → Prop
  | [] => True
  | .answered answer :: earlier => answer.Coherent settings earlier ∧ Coherent settings earlier
  | .invalidated _ :: earlier | .cleared :: earlier => Coherent settings earlier

/-- The latest recomputation for the id gave the snapshot, to live until the instant. -/
def Backed (settings : AggregatorSettings) (log : List Event) (id : String) (snapshot : Snapshot)
    (expires : Nat) : Prop :=
  snapshot.actorId = id ∧ ∃ source nanos,
    lastComputed id log = some source ∧ source.result = .ok snapshot ∧
    Ttl.parse settings.snapshotTtl = .ok nanos ∧ expires = source.now + nanos

/-- The log accounts for all that the aggregator has in its cache. -/
structure Accounts (settings : AggregatorSettings) (aggregator : Aggregator) (log : List Event) :
    Prop where
  configured : aggregator.settings = settings
  coherent : Coherent settings log
  backed : ∀ cache, aggregator.cache = some cache → ∀ id snapshot expires,
    cache.Holds id snapshot expires → Backed settings log id snapshot expires

variable {settings : AggregatorSettings} {aggregator : Aggregator} {log : List Event}

theorem Backed.of_lastComputed {later : List Event} {id : String} {snapshot : Snapshot}
    {expires : Nat} (h : Backed settings log id snapshot expires)
    (same : lastComputed id later = lastComputed id log) :
    Backed settings later id snapshot expires := by
  obtain ⟨owner, source, nanos, latest, rest⟩ := h
  exact ⟨owner, source, nanos, same.trans latest, rest⟩

theorem Accounts.refused (h : Accounts settings aggregator log) {after : Aggregator}
    {answer : Answer} {fault : Fault} (kept : after.settings = aggregator.settings)
    (same : after.cache = aggregator.cache) (failed : answer.result = .error fault)
    (reused : answer.recomputed = false) : Accounts settings after (.answered answer :: log) := by
  refine ⟨kept.trans h.configured, ⟨?_, h.coherent⟩, ?_⟩
  · intro snapshot returned
    rw [failed] at returned
    cases returned
  · intro cache hc id snapshot expires held
    refine (h.backed cache (same ▸ hc) id snapshot expires held).of_lastComputed ?_
    simp [lastComputed, reused]

theorem Accounts.hit (h : Accounts settings aggregator log) {after : Aggregator} {answer : Answer}
    {cache : Cache Snapshot} {snapshot : Snapshot} (kept : after.settings = aggregator.settings)
    (hc : aggregator.cache = some cache)
    (got : (cache.get answer.now answer.actor.id).1 = some snapshot)
    (current : aggregator.settings.checkActorVersion = true →
      snapshot.version = answer.actor.version)
    (ha : after.cache = some (cache.get answer.now answer.actor.id).2)
    (returned : answer.result = .ok snapshot) (reused : answer.recomputed = false) :
    Accounts settings after (.answered answer :: log) := by
  refine ⟨kept.trans h.configured, ⟨?_, h.coherent⟩, ?_⟩
  · intro other again
    cases returned.symm.trans again
    obtain ⟨expires, live, held⟩ := Cache.get_eq_some got
    obtain ⟨owner, source, nanos, latest, same, readable, rfl⟩ :=
      h.backed cache hc answer.actor.id snapshot expires held
    refine ⟨owner, h.configured ▸ current, .inr ⟨reused, source, nanos, latest, same, ?_, live⟩⟩
    exact readable
  · intro next hn id other expires held
    cases ha.symm.trans hn
    refine (h.backed cache hc id other expires held.of_get).of_lastComputed ?_
    simp [lastComputed, reused]

theorem Accounts.recomputed (h : Accounts settings aggregator log) {after : Aggregator}
    {answer : Answer} {context : Context} (kept : after.settings = aggregator.settings)
    (named : Text.isBlank answer.actor.id = false)
    (due : answer.due = aggregator.fresh context answer.actor)
    (ha : after.cache = aggregator.cache.map fun cache =>
      ((cache.get answer.now answer.actor.id).2.set answer.now answer.actor.id
        (aggregator.fresh context answer.actor) aggregator.settings.snapshotTtl).2)
    (returned : answer.result = .ok (aggregator.fresh context answer.actor))
    (computed : answer.recomputed = true) :
    Accounts settings after (.answered answer :: log) := by
  refine ⟨kept.trans h.configured, ⟨?_, h.coherent⟩, ?_⟩
  · intro snapshot again
    cases returned.symm.trans again
    exact ⟨rfl, fun _ => rfl, .inl ⟨computed, due.symm, rfl⟩⟩
  · intro next hn id snapshot expires held
    cases hc : aggregator.cache with
    | none => simp [ha, hc] at hn
    | some cache =>
      rw [ha, hc] at hn
      cases hn
      rcases held.of_set with ⟨rfl, rfl, nanos, readable, rfl⟩ | ⟨before, untouched⟩
      · refine ⟨rfl, answer, nanos, ?_, returned, h.configured ▸ readable, rfl⟩
        simp [lastComputed, computed]
      · have backed := h.backed cache hc id snapshot expires before.of_get
        refine backed.of_lastComputed ?_
        -- a name that is not blank and a readable time to live leave no older value in place
        obtain ⟨_, _, nanos, _, _, readable, _⟩ := backed
        rcases untouched with apart | empty | ⟨fault, unreadable⟩
        · simp [lastComputed, Ne.symm apart]
        · rw [String.isEmpty_iff.mp empty, Text.isBlank_empty] at named
          cases named
        · rw [h.configured, readable] at unreadable
          cases unreadable

theorem Accounts.resolveWith (h : Accounts settings aggregator log) (moment : Moment)
    (context : Context) (actor : Actor) :
    Accounts settings (aggregator.resolveWith moment context actor).2
      (.answered (aggregator.answer moment.now context actor
        (aggregator.resolveWith moment context actor)) :: log) := by
  have served := serves_resolveWith aggregator moment context actor
  generalize aggregator.resolveWith moment context actor = made at served
  cases served with
  | refused kept same misses => exact h.refused kept same rfl (by simp [answer, misses])
  | hit kept hc got current ha misses =>
    exact h.hit kept hc got current ha rfl (by simp [answer, misses])
  | recomputed kept named ha misses =>
    exact h.recomputed kept named rfl ha rfl (by simp [answer, misses])

theorem Accounts.resolveBatchWith (h : Accounts settings aggregator log) (context : Context)
    (requests : List (Moment × Actor)) :
    Accounts settings (aggregator.resolveBatchWith context requests).2
      (((aggregator.batchAnswers context requests).map .answered).reverse ++ log) := by
  induction requests generalizing aggregator log with
  | nil => exact h
  | cons request rest ih =>
    obtain ⟨moment, actor⟩ := request
    have next := ih (h.resolveWith moment context actor)
    simp only [batchAnswers, List.map_cons, List.reverse_cons, List.append_assoc]
    exact next

theorem Accounts.cachedSnapshot (h : Accounts settings aggregator log) (now : Nat) (id : String) :
    Accounts settings (aggregator.cachedSnapshot now id).2 log := by
  unfold Aggregator.cachedSnapshot
  split
  next => exact h
  next cache hc =>
    refine ⟨h.configured, h.coherent, ?_⟩
    intro after ha other snapshot expires held
    cases ha
    exact h.backed cache hc other snapshot expires held.of_get

theorem Accounts.invalidate (h : Accounts settings aggregator log) (id : String) :
    Accounts settings (aggregator.invalidate id).2 (.invalidated id :: log) := by
  have apart {other : String} (different : other ≠ id) :
      lastComputed other (.invalidated id :: log) = lastComputed other log := by
    simp [lastComputed, Ne.symm different]
  unfold Aggregator.invalidate
  split
  next cache deleted =>
    obtain ⟨before, hb, deleted⟩ := Option.map_eq_some_iff.mp deleted
    refine ⟨h.configured, h.coherent, ?_⟩
    intro after ha other snapshot expires held
    cases ha
    obtain ⟨different, held⟩ := held.of_delete deleted
    exact (h.backed before hb other snapshot expires held).of_lastComputed (apart different)
  next absent =>
    refine ⟨h.configured, h.coherent, ?_⟩
    intro cache hc other snapshot expires held
    refine (h.backed cache hc other snapshot expires held).of_lastComputed (apart ?_)
    rintro rfl
    have hc : aggregator.cache = some cache := hc
    refine absent { cache with entries := cache.entries.erase other } ?_
    simp [hc, Cache.delete, Cache.contains_of_holds held]

theorem Accounts.clearCache (h : Accounts settings aggregator log) :
    Accounts settings aggregator.clearCache (.cleared :: log) := by
  refine ⟨h.configured, h.coherent, ?_⟩
  intro after ha id snapshot expires held
  obtain ⟨cache, _, rfl⟩ := Option.map_eq_some_iff.mp ha
  exact absurd held (Cache.not_holds_of_entries_eq rfl)

theorem Accounts.call (h : Accounts settings aggregator log) (made : Call) :
    Accounts settings (aggregator.call made) (aggregator.events made ++ log) := by
  cases made with
  | resolve moment actor => exact h.resolveWith moment Context.empty actor
  | resolveWith moment context actor => exact h.resolveWith moment context actor
  | resolveBatch requests => exact h.resolveBatchWith Context.empty requests
  | resolveBatchWith context requests => exact h.resolveBatchWith context requests
  | cachedSnapshot now id => exact h.cachedSnapshot now id
  | invalidate id => exact h.invalidate id
  | clearCache => exact h.clearCache
  | change rules layers roster => exact ⟨h.configured, h.coherent, h.backed⟩

theorem Accounts.after (h : Accounts settings aggregator log) (calls : List Call) :
    Accounts settings (aggregator.after calls) (aggregator.log calls ++ log) := by
  induction calls generalizing aggregator log with
  | nil => exact h
  | cons made rest ih =>
    have next := ih (h.call made)
    rw [Aggregator.log, List.append_assoc]
    exact next

def start (settings : AggregatorSettings) (size : Nat) (policy : EvictionPolicy) : Aggregator :=
  { create (some (Cache.create size policy)) with settings }

theorem accounts_start (settings : AggregatorSettings) (size : Nat) (policy : EvictionPolicy) :
    Accounts settings (start settings size policy) [] := by
  refine ⟨rfl, trivial, ?_⟩
  intro cache hc id snapshot expires held
  cases hc
  exact absurd held (Cache.not_holds_of_entries_eq rfl)

/-- Whatever the calls and whatever the clock shows, an actor is given the snapshot that is due or
that of the latest recomputation, which nothing withdrew and whose time to live is not over. An
actor with a name is always given one, and a batch returns what its answers hold. -/
theorem coherent_after_calls (settings : AggregatorSettings) (size : Nat) (policy : EvictionPolicy)
    (calls : List Call) :
    Coherent settings ((start settings size policy).log calls) ∧
      (∀ moment actor,
        (∃ snapshot, (((start settings size policy).after calls).resolve moment actor).1 =
          .ok snapshot) ↔ Text.isBlank actor.id = false) ∧
      ∀ context requests,
        (((start settings size policy).after calls).resolveBatchWith context requests).1 =
          (((start settings size policy).after calls).batchAnswers context requests).filterMap
            (·.result.toOption) := by
  have accounts := (accounts_start settings size policy).after calls
  rw [List.append_nil] at accounts
  refine ⟨accounts.coherent, ?_, ?_⟩
  · exact fun moment actor => resolve_ok_iff _ moment actor
  · exact fun context requests => resolveBatchWith_eq _ context requests

/-- A second request is answered from the cache, and a request after an invalidation is not. -/
example :
    ((start AggregatorSettings.standard 1 .allkeysLru).log
      [.resolve ⟨0, []⟩ ⟨"hero", 1⟩, .resolve ⟨1, []⟩ ⟨"hero", 1⟩, .invalidate "hero",
        .resolve ⟨2, []⟩ ⟨"hero", 1⟩]).map (fun event =>
          match event with
          | .answered answer => some answer.recomputed
          | _ => none) =
      [some true, none, some false, some true] := by
  decide +kernel

end Statline.Aggregator
