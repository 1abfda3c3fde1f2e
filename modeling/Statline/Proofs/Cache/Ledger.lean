import Statline.Proofs.Cache.Expiry
import Statline.Proofs.Cache.Holds

namespace Statline.Cache

variable {α : Type} {cache next : Cache α} {now expires : Nat} {key other : String} {value : α}

/-- What becomes of the entries of a cache other than that they expire. -/
inductive Event (α : Type) where
  | stored (key : String) (value : α) (expires : Nat)
  | deleted (key : String)
  | evicted (key : String)
  | cleared

/-- Whether what was stored under the key before the event is gone after it. -/
def Event.Ends (event : Event α) (key : String) : Prop :=
  match event with
  | .stored other _ _ | .deleted other | .evicted other => other = key
  | .cleared => True

/-- The key that the policy gives up for a new key, if the cache is full of entries that live. -/
def chosen (cache : Cache α) (now : Nat) (key : String) : Option String :=
  if cache.entries.contains key || (cache.live now).size < cache.capacity then none
  else (cache.sweep now).victim

/-- What a call does to the entries, latest first. -/
def events (cache : Cache α) (now : Nat) : Call α → List (Event α)
  | .set key value ttl =>
    match (cache.set now key value ttl).1, Ttl.parse ttl with
    | .ok (), .ok nanos =>
      .stored key value (now + nanos) :: (cache.chosen now key).toList.map .evicted
    | _, _ => []
  | .delete key => if (cache.delete key).isOk then [.deleted key] else []
  | .clear => [.cleared]
  | .get _ | .has _ | .keys | .cleanup | .resetStats => []

/-- What a sequence of calls does to the entries, latest first. -/
def log (start : Cache α) : List (Nat × Call α) → List (Event α)
  | [] => []
  | made :: rest => log (start.call made.1 made.2) rest ++ start.events made.1 made.2

/-- The latest successful store under the key is that of the value, and since then the key was
neither deleted nor evicted and the cache not cleared. -/
def Standing (log : List (Event α)) (key : String) (value : α) (expires : Nat) : Prop :=
  ∃ since before, log = since ++ .stored key value expires :: before ∧
    ∀ event ∈ since, ¬event.Ends key

/-- Of what has not expired at an instant the cache holds just what stands in the log. -/
def Tracks (now : Nat) (cache : Cache α) (log : List (Event α)) : Prop :=
  ∀ key value expires, now < expires →
    (cache.Holds key value expires ↔ Standing log key value expires)

variable {log : List (Event α)}

theorem standing_cons {event : Event α} :
    Standing (event :: log) key value expires ↔
      event = .stored key value expires ∨ (¬event.Ends key ∧ Standing log key value expires) := by
  constructor
  · rintro ⟨since, before, whole, quiet⟩
    cases since with
    | nil => exact .inl (List.cons.inj whole).1
    | cons first rest =>
      obtain ⟨rfl, rfl⟩ := List.cons.inj whole
      obtain ⟨head, tail⟩ := List.forall_mem_cons.mp quiet
      exact .inr ⟨head, rest, before, rfl, tail⟩
  · rintro (rfl | ⟨head, since, before, rfl, tail⟩)
    · exact ⟨[], log, rfl, nofun⟩
    · exact ⟨event :: since, before, rfl, List.forall_mem_cons.mpr ⟨head, tail⟩⟩

theorem not_standing_nil : ¬Standing ([] : List (Event α)) key value expires := by
  rintro ⟨since, before, whole, _⟩
  cases since <;> cases whole

theorem holds_of_erase (erased : next.entries = cache.entries.erase other) :
    next.Holds key value expires ↔ key ≠ other ∧ cache.Holds key value expires := by
  refine ⟨fun h => h.of_erase erased, ?_⟩
  rintro ⟨apart, entry, found, rest⟩
  refine ⟨entry, ?_, rest⟩
  rw [erased, Table.get?_erase, if_neg apart, found]

theorem holds_sweep_iff (live : now < expires) :
    (cache.sweep now).Holds key value expires ↔ cache.Holds key value expires := by
  refine ⟨Holds.of_sweep, ?_⟩
  rintro ⟨entry, found, same, rfl⟩
  refine ⟨entry, ?_, same, rfl⟩
  simpa [get?_sweep, found, Option.filter, CacheEntry.isExpired] using live

theorem holds_get_iff (live : now < expires) :
    (cache.get now other).2.Holds key value expires ↔ cache.Holds key value expires := by
  refine ⟨Holds.of_get, fun h => ?_⟩
  obtain ⟨entry, found, same, rfl⟩ := h
  unfold get
  split
  next => exact ⟨entry, found, same, rfl⟩
  next kept known =>
    split
    next expired =>
      have apart : key ≠ other := by
        rintro rfl
        cases found.symm.trans known
        simp [CacheEntry.isExpired] at expired
        omega
      exact (holds_of_erase rfl).mpr ⟨apart, entry, found, same, rfl⟩
    next =>
      unfold Holds touch
      rw [Table.get?_insert]
      split
      next here =>
        subst here
        cases found.symm.trans known
        exact ⟨_, rfl, same, rfl⟩
      next => exact ⟨entry, found, same, rfl⟩

theorem holds_store_iff {kept : α} {limit : Nat} :
    (cache.store other kept limit).Holds key value expires ↔
      (key = other ∧ value = kept ∧ expires = limit) ∨
        (key ≠ other ∧ cache.Holds key value expires) := by
  refine ⟨Holds.of_store, ?_⟩
  unfold Holds store
  rw [Table.get?_insert]
  rintro (⟨rfl, rfl, rfl⟩ | ⟨apart, entry, found, rest⟩)
  · exact ⟨_, if_pos rfl, rfl, rfl⟩
  · exact ⟨entry, (if_neg apart).trans found, rest⟩

theorem get_eq_some_iff :
    (cache.get now key).1 = some value ↔
      ∃ expires, now < expires ∧ cache.Holds key value expires := by
  refine ⟨get_eq_some, ?_⟩
  rintro ⟨_, live, entry, found, rfl, rfl⟩
  rw [get_of_live found (by simpa [CacheEntry.isExpired] using live)]

theorem has_iff :
    cache.has now key = true ↔ ∃ value expires, now < expires ∧ cache.Holds key value expires := by
  unfold has
  split
  next entry found =>
    simp [Holds, found, CacheEntry.isExpired]
  next missing => simp [Holds, missing]

theorem mem_keys_iff : key ∈ cache.keys now ↔ cache.has now key = true := by
  rw [← contains_sweep, Table.contains_iff_mem_entries]
  simp [keys, Table.keys, sweep]

end Statline.Cache
