import Statline.Proofs.Cache.Eviction
import Statline.Proofs.Cache.Service

namespace Statline.Cache

variable {α : Type} {cache next : Cache α} {now : Nat} {key ttl : String} {value : α}
  {fault : Fault}

/-- Nothing gives way to a new key: the cache is full of entries that live, and may not evict. -/
structure Blocked (cache : Cache α) (now : Nat) (key : String) : Prop where
  policy : cache.policy = .noEviction
  new : cache.entries.contains key = false
  full : (cache.live now).size = cache.capacity

theorem victim_eq_none :
    cache.victim = none ↔ cache.policy = .noEviction ∨ cache.entries.entries = [] := by
  unfold victim
  split
  next never => exact iff_of_true rfl (.inl never)
  next evicting => rw [lowest_eq_none, or_iff_right evicting]

theorem makeRoom_of_blocked (h : cache.Blocked now key) :
    cache.makeRoom now = (.error (.cacheFull cache.capacity), cache.sweep now) := by
  rcases cache.makeRoom_cases now with
    ⟨room, _⟩ | ⟨_, room, _⟩ | ⟨_, ⟨_, chosen, _⟩ | ⟨_, same⟩⟩
  · have fewer : (cache.live now).size ≤ cache.size := cache.entries.size_filter_le _
    have full := h.full
    omega
  · exact absurd room h.full.ge.not_gt
  · exact absurd h.policy (lowest_of_victim chosen).1
  · exact same

/-- A cache that has room for one entry at least can always evict, if it may. -/
theorem Bounded.of_makeRoom_eq_error (h : cache.Bounded) (room : 0 < cache.capacity)
    (new : cache.entries.contains key = false) (made : cache.makeRoom now = (.error fault, next)) :
    cache.Blocked now key ∧ fault = .cacheFull cache.capacity ∧ next = cache := by
  rcases cache.makeRoom_cases now with
    ⟨_, same⟩ | ⟨_, _, same⟩ | ⟨crowded, ⟨_, _, same⟩ | ⟨unchosen, same⟩⟩ <;>
    cases same.symm.trans made
  have living : cache.live now = cache.entries :=
    Table.filter_eq_of_size_le (Nat.le_trans h crowded)
  have full : (cache.live now).size = cache.capacity := by
    have bounded : cache.entries.size ≤ cache.capacity := h
    rw [living] at crowded ⊢
    omega
  have stuck : cache.policy = .noEviction := by
    refine (victim_eq_none.mp unchosen).resolve_right fun vacant => ?_
    have empty : (cache.live now).size = 0 := congrArg List.length vacant
    omega
  exact ⟨⟨stuck, new, full⟩, rfl, by rw [Cache.sweep, living]⟩

theorem set_of_blocked (named : key ≠ "") (readable : ∃ nanos, Ttl.parse ttl = .ok nanos)
    (h : cache.Blocked now key) (value : α) :
    (cache.set now key value ttl).1 = .error (.cacheFull cache.capacity) := by
  obtain ⟨nanos, readable⟩ := readable
  have named : key.isEmpty = false := by simpa using named
  rw [set_of_makeRoom_error named readable h.new (makeRoom_of_blocked h)]

/-- What a store can be refused for; none of it leaves a trace. -/
theorem Bounded.of_set_eq_error (h : cache.Bounded) (room : 0 < cache.capacity)
    (failed : (cache.set now key value ttl).1 = .error fault) :
    (cache.set now key value ttl).2 = cache ∧
      (key = "" ∧ fault = .invalidInput "cache key cannot be empty" ∨
        Ttl.parse ttl = .error fault ∨
        (key ≠ "" ∧ (∃ nanos, Ttl.parse ttl = .ok nanos) ∧ cache.Blocked now key ∧
          fault = .cacheFull cache.capacity)) := by
  by_cases named : key = ""
  · subst named
    cases failed
    exact ⟨rfl, .inl ⟨rfl, rfl⟩⟩
  · rcases cache.set_cases now key value ttl with ⟨_, refused, same⟩ |
      ⟨nanos, readable, ⟨_, same⟩ | ⟨new, ⟨_, _, same⟩ | ⟨_, _, made, same⟩⟩⟩ <;>
      rw [same] at failed ⊢ <;> cases failed
    · exact ⟨rfl, .inr (.inl (refused.resolve_left (by simpa using named)))⟩
    · obtain ⟨blocked, rfl, rfl⟩ := h.of_makeRoom_eq_error room new made
      exact ⟨rfl, .inr (.inr ⟨named, ⟨nanos, readable⟩, blocked, rfl⟩)⟩

/-- Whatever the calls: a store is refused for want of room exactly if the cache may not evict, is
full of entries that live and does not hold the key; and whatever a store is refused for, it
leaves the cache as it was. -/
theorem set_refused_after_calls (size : Nat) (policy : EvictionPolicy)
    (calls : List (Nat × Call α)) (now : Nat) (key : String) (value : α) (ttl : String) :
    let cache : Cache α := (create size policy).after calls
    (∀ full, (cache.set now key value ttl).1 = .error (.cacheFull full) ↔
      full = max size 1 ∧ key ≠ "" ∧ (∃ nanos, Ttl.parse ttl = .ok nanos) ∧
        policy = .noEviction ∧ cache.entries.contains key = false ∧
        (cache.live now).size = max size 1) ∧
    ∀ fault, (cache.set now key value ttl).1 = .error fault →
      (cache.set now key value ttl).2 = cache ∧
        (key = "" ∨ fault = .invalidTtl ttl ∨ fault = .cacheFull (max size 1)) := by
  intro cache
  have bounded : cache.Bounded := (bounded_create size policy).after calls
  have capacity : cache.capacity = max size 1 := capacity_after _ calls
  have recalls := (recalls_create (α := α) size policy).after calls
  have unchanged : cache.policy = policy := recalls.policy_eq
  have room : 0 < cache.capacity := by omega
  refine ⟨fun full => ⟨fun failed => ?_, ?_⟩, fun fault failed => ?_⟩
  · rcases (bounded.of_set_eq_error room failed).2 with
      ⟨_, ⟨⟩⟩ | unreadable | ⟨named, readable, blocked, same⟩
    · cases Ttl.parse_eq_error unreadable
    · obtain rfl := Fault.cacheFull.inj same
      exact ⟨capacity, named, readable, unchanged.symm.trans blocked.policy, blocked.new,
        blocked.full.trans capacity⟩
  · rintro ⟨rfl, named, readable, never, new, full⟩
    have blocked : cache.Blocked now key :=
      ⟨unchanged.trans never, new, full.trans capacity.symm⟩
    rw [set_of_blocked named readable blocked, capacity]
  · obtain ⟨same, empty | unreadable | ⟨_, _, _, full⟩⟩ := bounded.of_set_eq_error room failed
    · exact ⟨same, .inl empty.1⟩
    · exact ⟨same, .inr (.inl (Ttl.parse_eq_error unreadable))⟩
    · exact ⟨same, .inr (.inr (capacity ▸ full))⟩

/-- What is stored for five nanoseconds gives way after five, not after four. -/
example :
    (((create 1 .noEviction).set 0 "sword" 1 "5ns").2.set 4 "shield" 2 "1h").1 =
        .error (.cacheFull 1) ∧
      (((create 1 .noEviction).set 0 "sword" 1 "5ns").2.set 5 "shield" 2 "1h").1 = .ok () := by
  decide +kernel

end Statline.Cache
