import Mathlib.Data.List.MinMax
import Mathlib.Data.Prod.Lex
import Statline.Proofs.Cache.Recency
import Statline.Proofs.Ttl.Parsing

namespace Statline.Cache

variable {α : Type} {policy : EvictionPolicy} {cache next : Cache α} {past : List Use}
  {entry held : CacheEntry α} {entries listed : List (String × CacheEntry α)} {key other : String}
  {now : Nat}

/-- Where an entry stands among all that could give way. -/
def place (policy : EvictionPolicy) (entry : String × CacheEntry α) : Nat ×ₗ Nat :=
  toLex (rank policy entry.2)

theorem precedes_iff {first second : String × CacheEntry α} :
    precedes (rank policy first.2) (rank policy second.2) = true ↔
      place policy first < place policy second := by
  simp [precedes, place, Prod.Lex.toLex_lt_toLex]

theorem place_ne {first second : String × CacheEntry α}
    (h : first.2.lastAccess ≠ second.2.lastAccess) : place policy first ≠ place policy second := by
  intro same
  have ranks : rank policy first.2 = rank policy second.2 := same
  cases policy <;> exact h (congrArg Prod.snd ranks)

theorem lowest_eq (policy : EvictionPolicy) (entries : List (String × CacheEntry α)) :
    lowest policy entries = (entries.argmin (place policy)).map Prod.fst := by
  cases entries with
  | nil => rfl
  | cons first rest =>
    refine congrArg (Option.map Prod.fst) (List.foldl_hom some fun least entry => ?_).symm
    simp only [List.argAux, precedes_iff]
    split <;> rfl

theorem lowest_eq_none : lowest policy entries = none ↔ entries = [] := by
  rw [lowest_eq, Option.map_eq_none_iff, List.argmin_eq_none]

/-- No two of the entries were used at the same tick. -/
def Distinct (entries : List (String × CacheEntry α)) : Prop :=
  ∀ first ∈ entries, ∀ second ∈ entries, first.1 ≠ second.1 →
    first.2.lastAccess ≠ second.2.lastAccess

theorem Distinct.place_lt (h : Distinct entries) (chosen : lowest policy entries = some key) :
    ∃ entry, (key, entry) ∈ entries ∧
      ∀ other ∈ entries, other.1 ≠ key → place policy (key, entry) < place policy other := by
  rw [lowest_eq] at chosen
  obtain ⟨⟨_, entry⟩, found, rfl⟩ := Option.map_eq_some_iff.mp chosen
  have member := List.argmin_mem found
  refine ⟨entry, member, fun other listed apart => ?_⟩
  refine lt_of_le_of_ne (List.le_of_mem_argmin listed found) (place_ne ?_)
  exact h _ member _ listed (Ne.symm apart)

/-- The choice does not depend on the order in which the entries are listed. -/
theorem Distinct.lowest_perm (h : Distinct entries) (same : listed.Perm entries) :
    lowest policy listed = lowest policy entries := by
  have h' : Distinct listed := fun first member second member' =>
    h first (same.mem_iff.mp member) second (same.mem_iff.mp member')
  cases chosen : lowest policy entries with
  | none =>
    obtain rfl := lowest_eq_none.mp chosen
    rw [same.eq_nil]
    rfl
  | some key =>
    cases again : lowest policy listed with
    | none =>
      obtain rfl := lowest_eq_none.mp again
      rw [same.nil_eq] at again
      exact again.symm.trans chosen
    | some other =>
      obtain ⟨entry, member, before⟩ := h.place_lt chosen
      obtain ⟨held, member', before'⟩ := h'.place_lt again
      by_contra different
      have apart : other ≠ key := fun equal => different (congrArg some equal)
      have below := before _ (same.mem_iff.mp member') apart
      have above := before' _ (same.mem_iff.mpr member) (Ne.symm apart)
      exact lt_asymm below above

/-- Whether the first key gives way before the second: the one that was used longest ago, was hit
least since it was stored, or expires first, and of two alike the one that was used longer ago. -/
def GivesWay (past : List Use) (key other : String) : EvictionPolicy → Prop
  | .allkeysLru | .volatileLru => age past other < age past key
  | .allkeysLfu | .volatileLfu =>
    hitsSince past key < hitsSince past other ∨
      hitsSince past key = hitsSince past other ∧ age past other < age past key
  | .volatileTtl =>
    ∃ sooner later, expiryOf past key = some sooner ∧ expiryOf past other = some later ∧
      (sooner < later ∨ sooner = later ∧ age past other < age past key)
  | .noEviction => False

theorem Recalled.givesWay (first : Recalled past key entry) (second : Recalled past other held)
    (evicting : policy ≠ .noEviction)
    (before : place policy (key, entry) < place policy (other, held)) :
    GivesWay past key other policy := by
  have older : entry.lastAccess < held.lastAccess ↔ age past other < age past key := by
    have access := first.access
    have access' := second.access
    omega
  cases policy with
  | noEviction => exact absurd rfl evicting
  | allkeysLru | volatileLru =>
    simp only [place, rank, Prod.Lex.toLex_lt_toLex] at before
    exact older.mp (by omega)
  | allkeysLfu | volatileLfu =>
    simp only [place, rank, Prod.Lex.toLex_lt_toLex, older, first.hits, second.hits] at before
    exact before
  | volatileTtl =>
    simp only [place, rank, Prod.Lex.toLex_lt_toLex, older] at before
    exact ⟨entry.expires, held.expires, first.expires, second.expires, before⟩

theorem lowest_of_victim (h : cache.victim = some key) :
    cache.policy ≠ .noEviction ∧ lowest cache.policy cache.entries.entries = some key := by
  unfold victim at h
  split at h
  next => cases h
  next evicting => exact ⟨evicting, h⟩

theorem Recalls.distinct (h : Recalls policy past cache) : Distinct cache.entries.entries := by
  rintro ⟨first, entry⟩ member ⟨second, held⟩ member' apart
  have found := Table.get?_eq_some_iff.mpr member
  have found' := Table.get?_eq_some_iff.mpr member'
  exact h.lastAccess_ne found found' apart

theorem every_live (cache : Cache α) (now : Nat) :
    (cache.live now).Every fun _ entry => now < entry.expires := by
  intro key entry found
  rw [live, Table.get?_filter, Option.filter_eq_some_iff] at found
  simpa [CacheEntry.isExpired] using found.2

/-- An entry is evicted only from a cache that is full of entries that live. -/
theorem Bounded.makeRoom_of_evicts (h : cache.Bounded) {result : Except Fault Unit}
    (made : cache.makeRoom now = (result, next)) (evicts : cache.evictions < next.evictions) :
    result = .ok () ∧ cache.live now = cache.entries ∧ ∃ victim, cache.victim = some victim ∧
      next = { cache with
        entries := cache.entries.erase victim
        evictions := cache.evictions + 1 } := by
  rcases cache.makeRoom_cases now with
    ⟨_, same⟩ | ⟨_, _, same⟩ | ⟨full, ⟨victim, chosen, same⟩ | ⟨_, same⟩⟩ <;>
    cases same.symm.trans made
  · exact absurd evicts (Nat.lt_irrefl _)
  · exact absurd evicts (Nat.lt_irrefl _)
  · have living : cache.live now = cache.entries :=
      Table.filter_eq_of_size_le (Nat.le_trans h full)
    have swept : cache.sweep now = cache := by rw [Cache.sweep, living]
    rw [swept] at chosen
    exact ⟨rfl, living, victim, chosen, by rw [swept, living]⟩
  · exact absurd evicts (Nat.lt_irrefl _)

theorem Bounded.set_of_evicts (h : cache.Bounded) {value : α} {ttl : String}
    (evicts : cache.evictions < (cache.set now key value ttl).2.evictions) :
    ∃ nanos victim, Ttl.parse ttl = .ok nanos ∧ cache.entries.contains key = false ∧
      cache.live now = cache.entries ∧ cache.victim = some victim ∧
      (cache.set now key value ttl).2 = { cache with
        entries := (cache.entries.erase victim).insert key ⟨value, now + nanos, cache.clock, 0⟩
        clock := cache.clock + 1
        evictions := cache.evictions + 1 } := by
  rcases cache.set_cases now key value ttl with ⟨_, _, same⟩ |
    ⟨nanos, readable, ⟨_, same⟩ | ⟨new, ⟨roomy, made, same⟩ | ⟨_, _, made, same⟩⟩⟩ <;>
    rw [same] at evicts
  · exact absurd evicts (Nat.lt_irrefl _)
  · exact absurd evicts (Nat.lt_irrefl _)
  · obtain ⟨_, living, victim, chosen, rfl⟩ := h.makeRoom_of_evicts made evicts
    exact ⟨nanos, victim, readable, new, living, chosen, congrArg Prod.snd same⟩
  · cases (h.makeRoom_of_evicts made evicts).1

/-- Whatever the calls: when storing a value evicts, it evicts one entry that still lives, under
another key, and nothing that has expired is left. The entry is the same in whatever order the
entries are listed, as what was called before tells which key gives way before all others. -/
theorem evicts_after_calls (size : Nat) (policy : EvictionPolicy) (calls : List (Nat × Call α))
    (now : Nat) (key : String) (value : α) (ttl : String)
    (evicts : ((create size policy).after calls).evictions <
      (((create size policy).after calls).call now (.set key value ttl)).evictions) :
    let cache : Cache α := (create size policy).after calls
    let next := cache.call now (.set key value ttl)
    ∃ victim held, cache.entries.get? victim = some held ∧ now < held.expires ∧ victim ≠ key ∧
      next.evictions = cache.evictions + 1 ∧
      (∀ other, other ≠ key →
        next.entries.get? other = if other = victim then none else cache.entries.get? other) ∧
      (∀ other entry, next.entries.get? other = some entry → now < entry.expires) ∧
      (∀ listed, listed.Perm (cache.live now).entries → lowest policy listed = some victim) ∧
      ∀ other, other ≠ victim → cache.entries.contains other = true →
        GivesWay ((create size policy : Cache α).past calls) victim other policy := by
  intro cache next
  have bounded : cache.Bounded := (bounded_create size policy).after calls
  have recalls : Recalls policy ((create size policy : Cache α).past calls) cache := by
    simpa using (recalls_create size policy).after calls
  obtain ⟨nanos, victim, readable, new, living, chosen, after⟩ := bounded.set_of_evicts evicts
  obtain ⟨evicting, chosen⟩ := lowest_of_victim chosen
  rw [recalls.policy_eq] at evicting chosen
  obtain ⟨held, member, before⟩ := recalls.distinct.place_lt chosen
  have found : cache.entries.get? victim = some held := Table.get?_eq_some_iff.mpr member
  have unexpired : cache.entries.Every fun _ entry => now < entry.expires :=
    living ▸ cache.every_live now
  have entries : next.entries = (cache.entries.erase victim).insert key _ :=
    congrArg (·.entries) after
  refine ⟨victim, held, found, unexpired victim held found, ?_, ?_, ?_, ?_, ?_, ?_⟩
  · rintro rfl
    simp [Table.contains, found] at new
  · exact congrArg (·.evictions) after
  · intro other apart
    rw [entries, Table.get?_insert, if_neg apart, Table.get?_erase]
  · rw [entries]
    exact (unexpired.erase victim).insert (Nat.lt_add_of_pos_right (Ttl.parse_pos readable))
  · intro listed same
    rw [living] at same
    exact (recalls.distinct.lowest_perm same).trans chosen
  · intro other apart stored
    obtain ⟨entry, member'⟩ := Table.contains_iff_mem_entries.mp stored
    have known := recalls.entries other entry (Table.get?_eq_some_iff.mpr member')
    exact (recalls.entries victim held found).givesWay known evicting (before _ member' apart)

/-- The first key is hit most often, but no more often than the others since it was stored again;
of the three the second was used longest ago. -/
def visits : List (Nat × Call Nat) :=
  [(0, .set "a" 1 "1h"), (0, .get "a"), (1, .get "a"), (1, .set "b" 2 "1h"), (2, .set "c" 3 "1h"),
    (3, .set "a" 4 "1h"), (3, .get "b"), (4, .get "d"), (5, .get "a"), (5, .get "c")]

theorem evicts_of_visits :
    let cache := (create 3 .allkeysLfu).after visits
    let next := cache.call 6 (.set "d" 5 "1h")
    cache.evictions < next.evictions ∧ next.keys 6 = ["a", "c", "d"] ∧
      ∀ other ∈ ["a", "c"],
        GivesWay ((create 3 .allkeysLfu : Cache Nat).past visits) "b" other .allkeysLfu := by
  intro cache next
  have evicts : cache.evictions < next.evictions := by decide +kernel
  obtain ⟨victim, _, _, _, _, _, _, _, listed, first⟩ :=
    evicts_after_calls 3 .allkeysLfu visits 6 "d" 5 "1h" evicts
  have lowest : lowest .allkeysLfu (cache.live 6).entries = some "b" := by decide +kernel
  obtain rfl : victim = "b" := Option.some.inj ((listed _ (.refl _)).symm.trans lowest)
  refine ⟨evicts, by decide +kernel, fun other member => first other ?_ ?_⟩
  · rintro rfl
    revert member
    decide
  · revert other
    decide +kernel

end Statline.Cache
