import Statline.Proofs.Cache.History

namespace Statline.Cache

variable {α : Type} {cache : Cache α} {now later nanos : Nat} {key ttl : String} {value : α}

theorem get?_sweep (cache : Cache α) (now : Nat) (key : String) :
    (cache.sweep now).entries.get? key =
      (cache.entries.get? key).filter fun entry => !entry.isExpired now :=
  Table.get?_filter _ _ _

theorem contains_sweep (cache : Cache α) (now : Nat) (key : String) :
    (cache.sweep now).entries.contains key = cache.has now key := by
  rw [Table.contains, get?_sweep, has]
  cases cache.entries.get? key with
  | none => rfl
  | some entry => cases expired : entry.isExpired now <;> simp [Option.filter, expired]

/-- What has expired stays expired. -/
theorem sweep_sweep (cache : Cache α) (h : now ≤ later) :
    (cache.sweep now).sweep later = cache.sweep later := by
  have same : (cache.live now).filter (fun entry => !entry.isExpired later) = cache.live later := by
    refine Table.filter_filter_of_imp fun entry live => ?_
    simp only [CacheEntry.isExpired, Bool.not_eq_true', decide_eq_false_iff_not] at live ⊢
    omega
  rw [sweep, sweep, live, same]
  rfl

theorem get_of_none (h : cache.entries.get? key = none) :
    cache.get now key = (none, { cache with misses := cache.misses + 1 }) := by
  simp [get, h]

theorem get_of_expired {entry : CacheEntry α} (h : cache.entries.get? key = some entry)
    (expired : entry.isExpired now = true) :
    cache.get now key = (none, { cache with
      entries := cache.entries.erase key
      misses := cache.misses + 1 }) := by
  simp [get, h, expired]

theorem get_of_live {entry : CacheEntry α} (h : cache.entries.get? key = some entry)
    (live : entry.isExpired now = false) :
    cache.get now key = (some entry.value, cache.touch key entry) := by
  simp [get, h, live]

theorem get_fst (cache : Cache α) (now : Nat) (key : String) :
    (cache.get now key).1 = ((cache.live now).get? key).map (·.value) := by
  rw [live, Table.get?_filter]
  cases found : cache.entries.get? key with
  | none => rw [get_of_none found]; rfl
  | some entry =>
    cases expired : entry.isExpired now with
    | true => rw [get_of_expired found expired]; simp [Option.filter, expired]
    | false => rw [get_of_live found expired]; simp [Option.filter, expired]

theorem set_of_contains (named : key.isEmpty = false) (readable : Ttl.parse ttl = .ok nanos)
    (stored : cache.entries.contains key = true) :
    cache.set now key value ttl = (.ok (), cache.store key value (now + nanos)) := by
  simp [set, named, readable, stored]

theorem set_of_makeRoom_ok {roomy : Cache α} (named : key.isEmpty = false)
    (readable : Ttl.parse ttl = .ok nanos) (new : cache.entries.contains key = false)
    (made : cache.makeRoom now = (.ok (), roomy)) :
    cache.set now key value ttl = (.ok (), roomy.store key value (now + nanos)) := by
  simp [set, named, readable, new, made]

theorem set_of_makeRoom_error {swept : Cache α} {fault : Fault} (named : key.isEmpty = false)
    (readable : Ttl.parse ttl = .ok nanos) (new : cache.entries.contains key = false)
    (made : cache.makeRoom now = (.error fault, swept)) :
    cache.set now key value ttl = (.error fault, swept) := by
  simp [set, named, readable, new, made]

/-- A sweep tells nothing of what the cache holds beside the entries that still live. -/
theorem makeRoom_of_full (full : cache.capacity ≤ (cache.live now).size) :
    cache.makeRoom now = (cache.sweep now).makeRoom now := by
  have fewer : (cache.live now).size ≤ cache.size := cache.entries.size_filter_le _
  have crowded : ¬cache.size < cache.capacity := by omega
  have still : ¬(cache.sweep now).size < (cache.sweep now).capacity := Nat.not_lt.mpr full
  simp only [makeRoom, crowded, still, sweep_sweep cache (Nat.le_refl now), if_false]

theorem makeRoom_of_room (room : (cache.live now).size < cache.capacity) :
    ∃ roomy, cache.makeRoom now = (.ok (), roomy) ∧ roomy.sweep now = cache.sweep now := by
  rcases cache.makeRoom_cases now with ⟨_, made⟩ | ⟨_, _, made⟩ | ⟨full, _⟩
  · exact ⟨cache, made, rfl⟩
  · exact ⟨cache.sweep now, made, sweep_sweep cache (Nat.le_refl now)⟩
  · omega

theorem sweep_store (cache : Cache α) (now : Nat) (key : String) (value : α) (expires : Nat) :
    ((cache.sweep now).store key value expires).sweep now =
      (cache.store key value expires).sweep now := by
  simp only [store, sweep, live, Table.filter_insert_filter]

theorem sweep_touch (cache : Cache α) (now : Nat) (key : String) (entry : CacheEntry α) :
    ((cache.sweep now).touch key entry).sweep now = (cache.touch key entry).sweep now := by
  simp only [touch, sweep, live, Table.filter_insert_filter]

theorem sweep_get (cache : Cache α) (now : Nat) (key : String) :
    ((cache.sweep now).get now key).1 = (cache.get now key).1 ∧
      ((cache.sweep now).get now key).2.sweep now = (cache.get now key).2.sweep now := by
  have swept := get?_sweep cache now key
  have again := sweep_sweep { cache with misses := cache.misses + 1 } (Nat.le_refl now)
  cases found : cache.entries.get? key with
  | none =>
    have gone : (cache.sweep now).entries.get? key = none := by simpa [found] using swept
    rw [get_of_none found, get_of_none gone]
    exact ⟨rfl, again⟩
  | some entry =>
    rw [found] at swept
    cases expired : entry.isExpired now with
    | true =>
      have gone : (cache.sweep now).entries.get? key = none := by
        simpa [Option.filter, expired] using swept
      rw [get_of_expired found expired, get_of_none gone]
      refine ⟨rfl, again.trans ?_⟩
      have dropped : (cache.entries.erase key).filter (fun entry => !entry.isExpired now) =
          cache.live now := by
        refine Table.filter_erase_of_dropped fun other held => ?_
        cases found.symm.trans held
        simp [expired]
      simp only [sweep, live] at dropped ⊢
      rw [dropped]
    | false =>
      have kept : (cache.sweep now).entries.get? key = some entry := by
        simpa [Option.filter, expired] using swept
      rw [get_of_live found expired, get_of_live kept expired]
      exact ⟨rfl, sweep_touch cache now key entry⟩

theorem sweep_has (cache : Cache α) (now : Nat) (key : String) :
    (cache.sweep now).has now key = cache.has now key := by
  rw [← contains_sweep, sweep_sweep cache (Nat.le_refl now), contains_sweep]

/-- An entry under a new key finds the same room, the same victim or the same refusal. -/
theorem sweep_set_of_new (cache : Cache α) (named : key.isEmpty = false)
    (readable : Ttl.parse ttl = .ok nanos) (new : cache.entries.contains key = false) (value : α) :
    ((cache.sweep now).set now key value ttl).1 = (cache.set now key value ttl).1 ∧
      ((cache.sweep now).set now key value ttl).2.sweep now =
        (cache.set now key value ttl).2.sweep now := by
  have gone : (cache.sweep now).entries.contains key = false := by
    have absent : cache.entries.get? key = none := by simpa [Table.contains] using new
    simp [contains_sweep, has, absent]
  by_cases room : (cache.live now).size < cache.capacity
  · obtain ⟨roomy, made, same⟩ := makeRoom_of_room room
    have swept : (cache.sweep now).makeRoom now = (.ok (), cache.sweep now) := if_pos room
    rw [set_of_makeRoom_ok named readable new made, set_of_makeRoom_ok named readable gone swept]
    refine ⟨rfl, ?_⟩
    rw [← sweep_store roomy, same]
  · have same := makeRoom_of_full (Nat.le_of_not_lt room)
    generalize made : cache.makeRoom now = result at same
    obtain ⟨outcome, after⟩ := result
    cases outcome with
    | error fault =>
      rw [set_of_makeRoom_error named readable new made,
        set_of_makeRoom_error named readable gone same.symm]
      exact ⟨rfl, rfl⟩
    | ok done =>
      rw [set_of_makeRoom_ok named readable new made,
        set_of_makeRoom_ok named readable gone same.symm]
      exact ⟨rfl, rfl⟩

theorem Bounded.sweep_set (h : cache.Bounded) (now : Nat) (key : String) (value : α)
    (ttl : String) :
    ((cache.sweep now).set now key value ttl).1 = (cache.set now key value ttl).1 ∧
      ((cache.sweep now).set now key value ttl).2.sweep now =
        (cache.set now key value ttl).2.sweep now := by
  cases named : key.isEmpty with
  | true => simp [Cache.set, named, sweep_sweep]
  | false =>
    cases readable : Ttl.parse ttl with
    | error fault => simp [Cache.set, named, readable, sweep_sweep]
    | ok nanos =>
      cases found : cache.entries.get? key with
      | none => exact sweep_set_of_new cache named readable (by simp [Table.contains, found]) value
      | some entry =>
        have stored : cache.entries.contains key = true := by simp [Table.contains, found]
        rw [set_of_contains named readable stored]
        cases expired : entry.isExpired now with
        | false =>
          have kept : (cache.sweep now).entries.contains key = true := by
            simp [contains_sweep, has, found, expired]
          rw [set_of_contains named readable kept]
          exact ⟨rfl, sweep_store cache now key value (now + nanos)⟩
        | true =>
          -- the expired entry is replaced in place, and swept away it leaves room for its successor
          have gone : (cache.sweep now).entries.contains key = false := by
            simp [contains_sweep, has, found, expired]
          have fewer : (cache.live now).size < cache.entries.size :=
            Table.size_filter_lt found (by simp [expired])
          have room : (cache.live now).size < cache.capacity := Nat.lt_of_lt_of_le fewer h
          have made : (cache.sweep now).makeRoom now = (.ok (), cache.sweep now) := if_pos room
          rw [set_of_makeRoom_ok named readable gone made]
          exact ⟨rfl, sweep_store cache now key value (now + nanos)⟩

/-- What a sweep leaves does not depend on whether the cache was swept before the call too. -/
theorem Bounded.sweep_call (h : cache.Bounded) (now : Nat) (made : Call α) :
    ((cache.sweep now).call now made).sweep now = (cache.call now made).sweep now := by
  cases made with
  | get key => exact (sweep_get cache now key).2
  | set key value ttl => exact (h.sweep_set now key value ttl).2
  | has _ | keys => exact sweep_sweep cache (Nat.le_refl now)
  | cleanup => exact congrArg (·.sweep now) (sweep_sweep cache (Nat.le_refl now))
  | delete key =>
    simp only [Cache.call, delete_eq, Cache.sweep, live, Table.filter_erase_filter]
  | clear => rfl
  | resetStats => exact sweep_sweep cache.resetStats (Nat.le_refl now)

theorem sweep_eq_of_le {first second : Cache α} (alike : first.sweep now = second.sweep now)
    (h : now ≤ later) : first.sweep later = second.sweep later := by
  rw [← sweep_sweep first h, alike, sweep_sweep second h]

theorem sweep_call_eq {first second : Cache α} (hf : first.Bounded) (hs : second.Bounded)
    (alike : first.sweep now = second.sweep now) (made : Call α) :
    (first.call now made).sweep now = (second.call now made).sweep now := by
  rw [← hf.sweep_call, alike, hs.sweep_call]

/-- The calls whose answer shows that an expired entry is still stored. -/
def Reveals (cache : Cache α) (now : Nat) : Call α → Prop
  | .delete key => ∃ entry, cache.entries.get? key = some entry ∧ entry.isExpired now = true
  | .cleanup => True
  | _ => False

theorem Bounded.answer_sweep (h : cache.Bounded) {made : Call α}
    (hidden : ¬cache.Reveals now made) :
    (cache.sweep now).answer now made = cache.answer now made := by
  cases made with
  | get key => exact congrArg Answer.found (sweep_get cache now key).1
  | set key value ttl => exact congrArg Answer.outcome (h.sweep_set now key value ttl).1
  | has key => exact congrArg Answer.present (sweep_has cache now key)
  | keys =>
    have same := sweep_sweep cache (Nat.le_refl now)
    exact congrArg (fun swept : Cache α => Answer.listed swept.entries.keys) same
  | delete key =>
    have same : (cache.sweep now).entries.contains key = cache.entries.contains key := by
      rw [contains_sweep, has, Table.contains]
      cases found : cache.entries.get? key with
      | none => rfl
      | some entry =>
        have live : entry.isExpired now = false :=
          Bool.eq_false_iff.mpr fun expired => hidden ⟨entry, found, expired⟩
        simp [live]
    simp only [answer, delete, same]
    split <;> rfl
  | cleanup => exact absurd trivial hidden
  | clear | resetStats => rfl

/-- A turn of two runs: a call that both make, or a cleanup that only the second makes. -/
inductive Turn (α : Type) where
  | both (now : Nat) (made : Call α)
  | extra (now : Nat)

namespace Turn

def instant : Turn α → Nat
  | both now _ | extra now => now

def plain : Turn α → Option (Nat × Call α)
  | both now made => some (now, made)
  | extra _ => none

def padded : Turn α → Nat × Call α
  | both now made => (now, made)
  | extra now => (now, .cleanup)

end Turn

theorem sweep_after {first second : Cache α} {start : Nat} {script : List (Turn α)}
    (hf : first.Bounded) (hs : second.Bounded) (alike : first.sweep start = second.sweep start)
    (ordered : (start :: (script.map Turn.instant ++ [now])).Pairwise (· ≤ ·)) :
    (first.after (script.filterMap Turn.plain)).sweep now =
      (second.after (script.map Turn.padded)).sweep now := by
  induction script generalizing first second start with
  | nil =>
    have reached : start ≤ now := List.rel_of_pairwise_cons ordered (by simp)
    exact sweep_eq_of_le alike reached
  | cons turn rest ih =>
    obtain ⟨reached, ordered⟩ := List.pairwise_cons.mp ordered
    have alike := sweep_eq_of_le alike (reached turn.instant (by simp))
    cases turn with
    | both now made =>
      refine ih (hf.call now made) (hs.call now made) ?_ ordered
      exact sweep_call_eq hf hs alike made
    | extra now =>
      refine ih hf (hs.call now .cleanup) ?_ ordered
      exact alike.trans (sweep_sweep second (Nat.le_refl now)).symm

/-- Cleaning up at any time tells nothing: after any calls at instants that do not go back, a
further call is answered alike with and without the cleanups in between, unless it deletes what has
expired or counts it, and it leaves alike all that the cache still serves and all that it counts. -/
theorem alike_after_calls (size : Nat) (policy : EvictionPolicy) (script : List (Turn α))
    (now : Nat) (made : Call α)
    (ordered : (script.map Turn.instant ++ [now]).Pairwise (· ≤ ·)) :
    let first := (create size policy).after (script.filterMap Turn.plain)
    let second := (create size policy).after (script.map Turn.padded)
    (¬first.Reveals now made → ¬second.Reveals now made →
      first.answer now made = second.answer now made) ∧
    (first.call now made).live now = (second.call now made).live now ∧
    (first.call now made).hits = (second.call now made).hits ∧
    (first.call now made).misses = (second.call now made).misses ∧
    (first.call now made).evictions = (second.call now made).evictions ∧
    (first.call now made).clock = (second.call now made).clock := by
  intro first second
  have bounded : (create size policy : Cache α).Bounded := bounded_create size policy
  have hf : first.Bounded := bounded.after _
  have hs : second.Bounded := bounded.after _
  have started : (0 :: (script.map Turn.instant ++ [now])).Pairwise (· ≤ ·) :=
    List.pairwise_cons.mpr ⟨fun instant _ => Nat.zero_le instant, ordered⟩
  have alike : first.sweep now = second.sweep now := sweep_after bounded bounded rfl started
  have same := sweep_call_eq hf hs alike made
  refine ⟨fun quiet silent => ?_, congrArg (·.entries) same, congrArg (·.hits) same,
    congrArg (·.misses) same, congrArg (·.evictions) same, congrArg (·.clock) same⟩
  rw [← hf.answer_sweep quiet, alike, hs.answer_sweep silent]

/-- The first run still stores an entry that has expired, which the second has cleaned up. -/
def lapse : List (Turn Nat) := [.both 0 (.set "a" 1 "5ns"), .extra 7]

/-- A cache for one entry that never evicts takes a second one in both runs. -/
theorem alike_of_lapse :
    (lapse.map Turn.instant ++ [8]).Pairwise (· ≤ ·) ∧
      ((create 1 .noEviction).after (lapse.filterMap Turn.plain)).answer 8 (.set "b" 2 "5ns") =
        .outcome (.ok ()) ∧
      ((create 1 .noEviction).after (lapse.map Turn.padded)).answer 8 (.set "b" 2 "5ns") =
        .outcome (.ok ()) := by
  have ordered : (lapse.map Turn.instant ++ [8]).Pairwise (· ≤ ·) := by decide
  have taken : ((create 1 .noEviction).after (lapse.filterMap Turn.plain)).answer 8
      (.set "b" 2 "5ns") = .outcome (.ok ()) := by
    decide +kernel
  have same := (alike_after_calls 1 .noEviction lapse 8 (.set "b" 2 "5ns") ordered).1 id id
  exact ⟨ordered, taken, same.symm.trans taken⟩

/-- Only the run without the cleanup can still delete the entry. -/
example :
    ((create 1 .noEviction).after (lapse.filterMap Turn.plain)).answer 8 (.delete "a") =
        .outcome (.ok ()) ∧
      ((create 1 .noEviction).after (lapse.map Turn.padded)).answer 8 (.delete "a") =
        .outcome (.error (.cacheKeyNotFound "a")) := by
  decide +kernel

end Statline.Cache
