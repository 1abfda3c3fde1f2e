import Statline.Proofs.Cache.Ledger

namespace Statline.Cache

variable {α : Type} {cache roomy next : Cache α} {log : List (Event α)}
  {now later floor nanos expires : Nat} {key ttl : String} {value : α}

theorem Tracks.mono (h : Tracks now cache log) (le : now ≤ later) : Tracks later cache log :=
  fun key value expires live => h key value expires (Nat.lt_of_le_of_lt le live)

theorem Tracks.sweep (h : Tracks now cache log) : Tracks now (cache.sweep now) log :=
  fun key value expires live => (holds_sweep_iff live).trans (h key value expires live)

theorem Tracks.store (h : Tracks now cache log) (key : String) (value : α) (expires : Nat) :
    Tracks now (cache.store key value expires) (.stored key value expires :: log) := by
  intro other kept limit live
  rw [holds_store_iff, standing_cons, h other kept limit live]
  simp only [Event.stored.injEq, Event.Ends, ne_eq, eq_comm]

theorem Tracks.erase (h : Tracks now cache log) {event : Event α}
    (ends : event = .deleted key ∨ event = .evicted key)
    (erased : next.entries = cache.entries.erase key) : Tracks now next (event :: log) := by
  intro other kept limit live
  rw [holds_of_erase erased, standing_cons, h other kept limit live]
  rcases ends with rfl | rfl <;> simp [Event.Ends, eq_comm]

/-- Making room for a new key gives up what the policy chooses, and nothing else that lives. -/
theorem Tracks.makeRoom (h : Tracks now cache log) (new : cache.entries.contains key = false)
    (made : cache.makeRoom now = (.ok (), roomy)) :
    Tracks now roomy ((cache.chosen now key).toList.map .evicted ++ log) := by
  have fewer : (cache.live now).size ≤ cache.size := cache.entries.size_filter_le _
  rcases cache.makeRoom_cases now with
    ⟨room, same⟩ | ⟨_, room, same⟩ | ⟨full, ⟨victim, gives, same⟩ | ⟨_, same⟩⟩
  · cases same.symm.trans made
    have unchosen : cache.chosen now key = none := by
      simp [chosen, Nat.lt_of_le_of_lt fewer room]
    rw [unchosen]
    exact h
  · cases same.symm.trans made
    have unchosen : cache.chosen now key = none := by simp [chosen, room]
    rw [unchosen]
    exact h.sweep
  · cases same.symm.trans made
    have gone : cache.chosen now key = some victim := by
      simp [chosen, new, Nat.not_lt.mpr full, gives]
    rw [gone]
    exact h.sweep.erase (.inr rfl) rfl
  · cases same.symm.trans made

theorem Tracks.makeRoom_error (h : Tracks now cache log) {fault : Fault}
    (made : cache.makeRoom now = (.error fault, next)) : Tracks now next log := by
  rcases cache.makeRoom_cases now with
    ⟨_, same⟩ | ⟨_, _, same⟩ | ⟨_, ⟨_, _, same⟩ | ⟨_, same⟩⟩
  · cases same.symm.trans made
  · cases same.symm.trans made
  · cases same.symm.trans made
  · cases same.symm.trans made
    exact h.sweep

theorem events_set_of_ok (readable : Ttl.parse ttl = .ok nanos)
    (accepted : (cache.set now key value ttl).1 = .ok ()) :
    cache.events now (.set key value ttl) =
      .stored key value (now + nanos) :: (cache.chosen now key).toList.map .evicted := by
  simp [events, readable, accepted]

theorem events_set_of_error {fault : Fault}
    (refused : (cache.set now key value ttl).1 = .error fault) :
    cache.events now (.set key value ttl) = [] := by
  simp [events, refused]

theorem Tracks.set (h : Tracks now cache log) (key : String) (value : α) (ttl : String) :
    Tracks now (cache.set now key value ttl).2 (cache.events now (.set key value ttl) ++ log) := by
  rcases cache.set_cases now key value ttl with ⟨_, _, same⟩ |
    ⟨nanos, readable, ⟨stored, same⟩ | ⟨new, ⟨roomy, made, same⟩ | ⟨_, _, made, same⟩⟩⟩
  · rw [events_set_of_error (congrArg Prod.fst same), same]
    exact h
  · have unchosen : cache.chosen now key = none := by simp [chosen, stored]
    rw [events_set_of_ok readable (congrArg Prod.fst same), same, unchosen]
    exact h.store key value (now + nanos)
  · rw [events_set_of_ok readable (congrArg Prod.fst same), same]
    exact (h.makeRoom new made).store key value (now + nanos)
  · rw [events_set_of_error (congrArg Prod.fst same), same]
    exact h.makeRoom_error made

theorem Tracks.delete (h : Tracks now cache log) (key : String) :
    Tracks now (cache.call now (.delete key)) (cache.events now (.delete key) ++ log) := by
  simp only [Cache.call, events]
  unfold Cache.delete
  split
  next => exact h.erase (.inl rfl) rfl
  next => exact h

theorem Tracks.call (h : Tracks now cache log) (made : Call α) :
    Tracks now (cache.call now made) (cache.events now made ++ log) := by
  cases made with
  | get key =>
    exact fun other kept limit live => (holds_get_iff live).trans (h other kept limit live)
  | set key value ttl => exact h.set key value ttl
  | has _ | keys | resetStats => exact h
  | cleanup => exact h.sweep
  | delete key => exact h.delete key
  | clear =>
    intro other kept limit live
    have gone : ¬cache.clear.Holds other kept limit := not_holds_of_entries_eq rfl
    simp [events, Cache.call, standing_cons, Event.Ends, gone]

theorem Tracks.after (calls : List (Nat × Call α)) (h : Tracks floor cache log)
    (ordered : (floor :: (calls.map (·.1) ++ [now])).Pairwise (· ≤ ·)) :
    Tracks now (cache.after calls) (cache.log calls ++ log) := by
  induction calls generalizing cache log floor with
  | nil => exact h.mono (List.rel_of_pairwise_cons ordered (by simp))
  | cons made rest ih =>
    obtain ⟨reached, ordered⟩ := List.pairwise_cons.mp ordered
    have step := (h.mono (reached made.1 (by simp))).call made.2
    rw [Cache.log, List.append_assoc]
    exact ih step ordered

theorem tracks_create (size : Nat) (policy : EvictionPolicy) :
    Tracks 0 (create size policy : Cache α) [] :=
  fun _ _ _ _ => iff_of_false (not_holds_of_entries_eq rfl) not_standing_nil

theorem capacity_makeRoom (cache : Cache α) (now : Nat) :
    (cache.makeRoom now).2.capacity = cache.capacity := by
  rcases cache.makeRoom_cases now with
    ⟨_, same⟩ | ⟨_, _, same⟩ | ⟨_, ⟨_, _, same⟩ | ⟨_, same⟩⟩ <;> rw [same] <;> rfl

theorem capacity_set (cache : Cache α) (now : Nat) (key : String) (value : α) (ttl : String) :
    (cache.set now key value ttl).2.capacity = cache.capacity := by
  have kept := cache.capacity_makeRoom now
  rcases cache.set_cases now key value ttl with ⟨_, _, same⟩ |
    ⟨_, _, ⟨_, same⟩ | ⟨_, ⟨_, made, same⟩ | ⟨_, _, made, same⟩⟩⟩ <;> rw [same]
  · rfl
  · rw [made] at kept
    exact kept
  · rw [made] at kept
    exact kept

theorem capacity_call (cache : Cache α) (now : Nat) (made : Call α) :
    (cache.call now made).capacity = cache.capacity := by
  cases made with
  | get key =>
    unfold Cache.call Cache.get
    grind [touch]
  | set key value ttl => exact cache.capacity_set now key value ttl
  | delete key => simp only [Cache.call, delete_eq]
  | has _ | keys | clear | cleanup | resetStats => rfl

theorem capacity_after (cache : Cache α) (calls : List (Nat × Call α)) :
    (cache.after calls).capacity = cache.capacity :=
  List.foldlRecOn (motive := fun next : Cache α => next.capacity = cache.capacity) calls _ rfl
    fun before same made _ => (before.capacity_call made.1 made.2).trans same

/-- Whatever the calls, at instants that do not go back, the cache never stores more entries than
it was made for, and it serves a value just if the latest successful store under its key is of that
value, still lives, and was neither deleted, nor cleared, nor evicted since. -/
theorem serves_after_calls (size : Nat) (policy : EvictionPolicy) (calls : List (Nat × Call α))
    (now : Nat) (ordered : (calls.map (·.1) ++ [now]).Pairwise (· ≤ ·)) :
    let cache : Cache α := (create size policy).after calls
    let log := (create size policy).log calls
    cache.size ≤ max size 1 ∧
    (∀ key value, (cache.get now key).1 = some value ↔
      ∃ expires, now < expires ∧ Standing log key value expires) ∧
    (∀ key, cache.has now key = true ↔
      ∃ value expires, now < expires ∧ Standing log key value expires) ∧
    (∀ key, key ∈ cache.keys now ↔
      ∃ value expires, now < expires ∧ Standing log key value expires) ∧
    (cache.keys now).Pairwise (· < ·) := by
  intro cache log
  have started : (0 :: (calls.map (·.1) ++ [now])).Pairwise (· ≤ ·) :=
    List.pairwise_cons.mpr ⟨fun instant _ => Nat.zero_le instant, ordered⟩
  have tracks : Tracks now cache log := by
    simpa using (tracks_create size policy).after calls started
  have same (key : String) : (∃ value expires, now < expires ∧ cache.Holds key value expires) ↔
      ∃ value expires, now < expires ∧ Standing log key value expires :=
    exists_congr fun value => exists_congr fun expires =>
      and_congr_right fun live => tracks key value expires live
  refine ⟨?_, fun key value => ?_, fun key => has_iff.trans (same key),
    fun key => (mem_keys_iff.trans has_iff).trans (same key), ?_⟩
  · have bounded : cache.Bounded := (bounded_create size policy).after calls
    rwa [Bounded, capacity_after] at bounded
  · exact get_eq_some_iff.trans
      (exists_congr fun expires => and_congr_right fun live => tracks key value expires live)
  · exact (cache.live now).ascending.map _ fun _ _ below => below

/-- The third key takes the place of the second, which was asked for less recently than the first;
the fourth is deleted again. -/
def turnover : List (Nat × Call Nat) :=
  [(0, .set "a" 1 "1h"), (1, .set "b" 2 "1h"), (1, .get "a"), (2, .set "c" 3 "5ns"),
    (9, .set "d" 4 "1h"), (9, .delete "d")]

theorem serves_of_turnover :
    (turnover.map Prod.fst ++ [9]).Pairwise (· ≤ ·) ∧
      ((create 2 .allkeysLru).after turnover).keys 9 = ["a"] ∧
      (∃ expires, 9 < expires ∧ Standing ((create 2 .allkeysLru).log turnover) "a" 1 expires) ∧
      ∀ key ∈ ["b", "c", "d"], ¬∃ value expires, 9 < expires ∧
        Standing ((create 2 .allkeysLru).log turnover) key value expires := by
  have ordered : (turnover.map Prod.fst ++ [9]).Pairwise (· ≤ ·) := by decide
  have served : (((create 2 .allkeysLru).after turnover).get 9 "a").1 = some 1 := by
    decide +kernel
  have keys : ((create 2 .allkeysLru).after turnover).keys 9 = ["a"] := by decide +kernel
  obtain ⟨_, found, _, listed, _⟩ := serves_after_calls 2 .allkeysLru turnover 9 ordered
  refine ⟨ordered, keys, (found "a" 1).mp served, fun key member stands => ?_⟩
  have inside := (listed key).mpr stands
  rw [keys, List.mem_singleton] at inside
  subst inside
  revert member
  decide

end Statline.Cache
