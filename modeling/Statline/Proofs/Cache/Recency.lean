import Statline.Proofs.Cache.Expiry

namespace Statline.Cache

variable {α : Type}

/-- What takes a tick: a store that succeeds, or a hit. -/
inductive Use where
  | stored (key : String) (expires : Nat)
  | hit (key : String)
deriving DecidableEq

def Use.key : Use → String
  | .stored key _ | .hit key => key

/-- The expiry that the use gives the key. -/
def Use.expiry? (key : String) : Use → Option Nat
  | .stored other expires => if other = key then some expires else none
  | .hit _ => none

/-- The use that a call makes of the cache, as its caller can tell. -/
def uses (cache : Cache α) (now : Nat) : Call α → List Use
  | .get key => if (cache.get now key).1.isSome then [.hit key] else []
  | .set key value ttl =>
    match (cache.set now key value ttl).1, Ttl.parse ttl with
    | .ok (), .ok nanos => [.stored key (now + nanos)]
    | _, _ => []
  | .has _ | .keys | .delete _ | .clear | .cleanup | .resetStats => []

/-- The uses that a sequence of calls makes of the cache, latest first. -/
def past (start : Cache α) : List (Nat × Call α) → List Use
  | [] => []
  | made :: rest => past (start.call made.1 made.2) rest ++ start.uses made.1 made.2

/-- How many uses came after the latest one of the key. -/
def age (past : List Use) (key : String) : Nat :=
  (past.map Use.key).idxOf key

/-- How often the key was hit since it was stored last. -/
def hitsSince (past : List Use) (key : String) : Nat :=
  (past.takeWhile fun use => (use.expiry? key).isNone).count (.hit key)

/-- The expiry that the latest store gave the key. -/
def expiryOf (past : List Use) (key : String) : Option Nat :=
  past.findSome? (Use.expiry? key)

variable {past : List Use} {use : Use} {key other : String} {expires : Nat}

theorem age_cons_self (h : use.key = key) : age (use :: past) key = 0 := by
  simp [age, h]

theorem age_cons_of_ne (h : use.key ≠ key) : age (use :: past) key = age past key + 1 := by
  simp [age, List.idxOf_cons_ne _ h]

theorem age_inj (h : age past key < past.length) (same : age past key = age past other) :
    key = other := by
  have used : key ∈ past.map Use.key := List.idxOf_lt_length_iff.mp (by simpa [age] using h)
  exact (List.idxOf_inj used).mp same

theorem expiry?_of_ne (h : use.key ≠ key) : use.expiry? key = none := by
  cases use with
  | stored other expires => exact if_neg h
  | hit _ => rfl

theorem hitsSince_cons_of_ne (h : use.key ≠ key) :
    hitsSince (use :: past) key = hitsSince past key := by
  have apart : use ≠ .hit key := fun same => h (by rw [same]; rfl)
  simp [hitsSince, expiry?_of_ne h, List.count_cons_of_ne apart]

theorem hitsSince_cons_hit : hitsSince (.hit key :: past) key = hitsSince past key + 1 := by
  simp [hitsSince, Use.expiry?]

theorem hitsSince_cons_stored : hitsSince (.stored key expires :: past) key = 0 := by
  simp [hitsSince, Use.expiry?]

theorem expiryOf_cons_of_none (h : use.expiry? key = none) :
    expiryOf (use :: past) key = expiryOf past key := by
  simp [expiryOf, h]

theorem expiryOf_cons_stored : expiryOf (.stored key expires :: past) key = some expires := by
  simp [expiryOf, Use.expiry?]

/-- What an entry carries for the policies tells of its key's past. -/
structure Recalled (past : List Use) (key : String) (entry : CacheEntry α) : Prop where
  access : entry.lastAccess + age past key + 1 = past.length
  hits : entry.hits = hitsSince past key
  expires : expiryOf past key = some entry.expires

structure Recalls (policy : EvictionPolicy) (past : List Use) (cache : Cache α) : Prop where
  policy_eq : cache.policy = policy
  clock : cache.clock = past.length
  entries : cache.entries.Every (Recalled past)

variable {policy : EvictionPolicy} {cache next : Cache α} {entry : CacheEntry α} {now : Nat}

theorem Recalled.cons_of_ne (h : Recalled past key entry) (apart : use.key ≠ key) :
    Recalled (use :: past) key entry where
  access := by
    rw [age_cons_of_ne apart, List.length_cons, ← h.access]
    omega
  hits := h.hits.trans (hitsSince_cons_of_ne apart).symm
  expires := (expiryOf_cons_of_none (expiry?_of_ne apart)).trans h.expires

/-- The use of a key leaves what all other entries recall as true as it was. -/
theorem Recalls.insert (h : Recalls policy past cache) (kept : next.policy = cache.policy)
    (ticked : next.clock = cache.clock + 1)
    (inserted : next.entries = cache.entries.insert use.key entry)
    (recalled : Recalled (use :: past) use.key entry) : Recalls policy (use :: past) next where
  policy_eq := kept.trans h.policy_eq
  clock := by rw [ticked, h.clock, List.length_cons]
  entries := by
    intro other held found
    rw [inserted, Table.get?_insert] at found
    split at found
    next same =>
      cases found
      exact same ▸ recalled
    next apart => exact (h.entries other held found).cons_of_ne (Ne.symm apart)

theorem Recalls.store (h : Recalls policy past cache) (key : String) (value : α) (expires : Nat) :
    Recalls policy (.stored key expires :: past) (cache.store key value expires) := by
  refine h.insert rfl rfl rfl ⟨?_, hitsSince_cons_stored.symm, expiryOf_cons_stored⟩
  rw [age_cons_self rfl, List.length_cons, ← h.clock]

theorem Recalls.touch (h : Recalls policy past cache)
    (found : cache.entries.get? key = some entry) :
    Recalls policy (.hit key :: past) (cache.touch key entry) := by
  have before := h.entries key entry found
  refine h.insert rfl rfl rfl ⟨?_, ?_, (expiryOf_cons_of_none rfl).trans before.expires⟩
  · rw [age_cons_self rfl, List.length_cons, ← h.clock]
  · exact (congrArg (· + 1) before.hits).trans hitsSince_cons_hit.symm

theorem Recalls.of_fewer (h : Recalls policy past cache) (kept : next.policy = cache.policy)
    (still : next.clock = cache.clock)
    (fewer : ∀ key entry, next.entries.get? key = some entry →
      cache.entries.get? key = some entry) : Recalls policy past next where
  policy_eq := kept.trans h.policy_eq
  clock := still.trans h.clock
  entries := fun key entry found => h.entries key entry (fewer key entry found)

theorem Recalls.sweep (h : Recalls policy past cache) (now : Nat) :
    Recalls policy past (cache.sweep now) := by
  refine h.of_fewer rfl rfl fun key entry found => ?_
  rw [get?_sweep, Option.filter_eq_some_iff] at found
  exact found.1

theorem Recalls.erase (h : Recalls policy past cache) (kept : next.policy = cache.policy)
    (still : next.clock = cache.clock) (erased : next.entries = cache.entries.erase key) :
    Recalls policy past next := by
  refine h.of_fewer kept still fun other entry found => ?_
  rw [erased, Table.get?_erase] at found
  split at found
  next => cases found
  next => exact found

theorem Recalls.makeRoom (h : Recalls policy past cache) {result : Except Fault Unit}
    (made : cache.makeRoom now = (result, next)) : Recalls policy past next := by
  rcases cache.makeRoom_cases now with
    ⟨_, same⟩ | ⟨_, _, same⟩ | ⟨_, ⟨_, _, same⟩ | ⟨_, same⟩⟩
  · cases same.symm.trans made
    exact h
  · cases same.symm.trans made
    exact h.sweep now
  · cases same.symm.trans made
    exact (h.sweep now).erase rfl rfl rfl
  · cases same.symm.trans made
    exact h.sweep now

theorem Recalls.get (h : Recalls policy past cache) (now : Nat) (key : String) :
    Recalls policy (cache.uses now (.get key) ++ past) (cache.get now key).2 := by
  simp only [uses]
  cases found : cache.entries.get? key with
  | none =>
    rw [get_of_none found]
    exact h.of_fewer rfl rfl fun _ _ held => held
  | some entry =>
    cases expired : entry.isExpired now with
    | true =>
      rw [get_of_expired found expired]
      exact h.erase rfl rfl rfl
    | false =>
      rw [get_of_live found expired]
      exact h.touch found

theorem Recalls.set (h : Recalls policy past cache) (now : Nat) (key : String) (value : α)
    (ttl : String) :
    Recalls policy (cache.uses now (.set key value ttl) ++ past)
      (cache.set now key value ttl).2 := by
  simp only [uses]
  rcases cache.set_cases now key value ttl with ⟨_, _, same⟩ |
    ⟨nanos, readable, ⟨_, same⟩ | ⟨_, ⟨_, made, same⟩ | ⟨_, _, made, same⟩⟩⟩ <;> rw [same]
  · exact h
  · rw [readable]
    exact h.store key value (now + nanos)
  · rw [readable]
    exact (h.makeRoom made).store key value (now + nanos)
  · exact h.makeRoom made

theorem Recalls.call (h : Recalls policy past cache) (now : Nat) (made : Call α) :
    Recalls policy (cache.uses now made ++ past) (cache.call now made) := by
  cases made with
  | get key => exact h.get now key
  | set key value ttl => exact h.set now key value ttl
  | has _ | keys => exact h
  | resetStats => exact ⟨h.policy_eq, h.clock, h.entries⟩
  | delete key =>
    simp only [Cache.call, delete_eq]
    exact h.erase rfl rfl rfl
  | cleanup => exact h.sweep now
  | clear => exact ⟨h.policy_eq, h.clock, Table.every_empty⟩

theorem Recalls.after (calls : List (Nat × Call α)) (h : Recalls policy past cache) :
    Recalls policy (cache.past calls ++ past) (cache.after calls) := by
  induction calls generalizing cache past with
  | nil => exact h
  | cons made rest ih =>
    rw [Cache.past, List.append_assoc]
    exact ih (h.call made.1 made.2)

theorem recalls_create (size : Nat) (policy : EvictionPolicy) :
    Recalls policy [] (create size policy : Cache α) :=
  ⟨rfl, rfl, Table.every_empty⟩

/-- No two entries were used at the same tick. -/
theorem Recalls.lastAccess_ne (h : Recalls policy past cache) {held : CacheEntry α}
    (found : cache.entries.get? key = some entry) (stored : cache.entries.get? other = some held)
    (apart : key ≠ other) : entry.lastAccess ≠ held.lastAccess := by
  have first := (h.entries key entry found).access
  have second := (h.entries other held stored).access
  have used : age past key < past.length := by omega
  exact fun same => apart (age_inj used (by omega))

end Statline.Cache
