import Statline.Proofs.Cache.History

namespace Statline.Cache

variable {α : Type} {cache : Cache α} {now expires : Nat} {key other ttl : String} {value kept : α}

/-- The cache holds the value for the key until it expires, whether or not it did so already. -/
def Holds (cache : Cache α) (key : String) (value : α) (expires : Nat) : Prop :=
  ∃ entry, cache.entries.get? key = some entry ∧ entry.value = value ∧ entry.expires = expires

theorem not_holds_of_entries_eq (h : cache.entries = Table.empty) :
    ¬cache.Holds key value expires := by
  rintro ⟨entry, found, _⟩
  simp [h] at found

theorem contains_of_holds (h : cache.Holds key value expires) :
    cache.entries.contains key = true := by
  obtain ⟨entry, found, _⟩ := h
  simp [Table.contains, found]

theorem Holds.of_erase {after : Cache α} (erased : after.entries = cache.entries.erase other)
    (h : after.Holds key value expires) : key ≠ other ∧ cache.Holds key value expires := by
  obtain ⟨entry, found, rest⟩ := h
  rw [erased, Table.get?_erase] at found
  split at found
  next => cases found
  next apart => exact ⟨apart, entry, found, rest⟩

theorem Holds.of_sweep (h : (cache.sweep now).Holds key value expires) :
    cache.Holds key value expires := by
  obtain ⟨entry, found, rest⟩ := h
  rw [sweep, live, Table.get?_filter, Option.filter_eq_some_iff] at found
  exact ⟨entry, found.1, rest⟩

theorem Holds.of_get (h : (cache.get now other).2.Holds key value expires) :
    cache.Holds key value expires := by
  unfold get at h
  split at h
  next => exact h
  next entry found =>
    split at h
    next => exact (h.of_erase rfl).2
    next =>
      obtain ⟨last, known, same, limit⟩ := h
      rw [touch, Table.get?_insert] at known
      split at known
      next here =>
        cases known
        exact ⟨entry, here ▸ found, same, limit⟩
      next => exact ⟨last, known, same, limit⟩

theorem get_eq_some (h : (cache.get now key).1 = some value) :
    ∃ expires, now < expires ∧ cache.Holds key value expires := by
  unfold get at h
  split at h
  next => cases h
  next entry found =>
    split at h
    next => cases h
    next live =>
      cases h
      refine ⟨entry.expires, ?_, entry, found, rfl, rfl⟩
      simpa [CacheEntry.isExpired] using live

theorem Holds.of_makeRoom {result : Except Fault Unit} {after : Cache α}
    (made : cache.makeRoom now = (result, after)) (h : after.Holds key value expires) :
    cache.Holds key value expires := by
  rcases cache.makeRoom_cases now with
    ⟨_, same⟩ | ⟨_, _, same⟩ | ⟨_, ⟨_, _, same⟩ | ⟨_, same⟩⟩
  · cases same.symm.trans made
    exact h
  · cases same.symm.trans made
    exact h.of_sweep
  · cases same.symm.trans made
    exact (h.of_erase rfl).2.of_sweep
  · cases same.symm.trans made
    exact h.of_sweep

theorem Holds.of_store {limit : Nat} (h : (cache.store other kept limit).Holds key value expires) :
    (key = other ∧ value = kept ∧ expires = limit) ∨
      (key ≠ other ∧ cache.Holds key value expires) := by
  obtain ⟨entry, found, same, last⟩ := h
  rw [store, Table.get?_insert] at found
  split at found
  next here =>
    cases found
    exact .inl ⟨here, same.symm, last.symm⟩
  next apart => exact .inr ⟨apart, entry, found, same, last⟩

/-- After a request to store, the cache holds the new value or what it held before. An older value
of the same key survives only a request that could never store anything under it. -/
theorem Holds.of_set (h : (cache.set now other kept ttl).2.Holds key value expires) :
    (key = other ∧ value = kept ∧ ∃ nanos, Ttl.parse ttl = .ok nanos ∧ expires = now + nanos) ∨
      (cache.Holds key value expires ∧
        (key ≠ other ∨ other.isEmpty = true ∨ ∃ fault, Ttl.parse ttl = .error fault)) := by
  rcases cache.set_cases now other kept ttl with ⟨fault, refused, same⟩ |
    ⟨nanos, readable, ⟨_, same⟩ | ⟨new, ⟨roomy, made, same⟩ | ⟨_, _, made, same⟩⟩⟩ <;>
    rw [same] at h
  · exact .inr ⟨h, .inr (refused.imp_right fun unreadable => ⟨fault, unreadable⟩)⟩
  · rcases h.of_store with ⟨here, same, last⟩ | ⟨apart, before⟩
    · exact .inl ⟨here, same, nanos, readable, last⟩
    · exact .inr ⟨before, .inl apart⟩
  · rcases h.of_store with ⟨here, same, last⟩ | ⟨apart, before⟩
    · exact .inl ⟨here, same, nanos, readable, last⟩
    · exact .inr ⟨before.of_makeRoom made, .inl apart⟩
  · have before := h.of_makeRoom made
    refine .inr ⟨before, .inl ?_⟩
    rintro rfl
    exact Bool.eq_false_iff.mp new (contains_of_holds before)

theorem Holds.of_delete {after : Cache α} (deleted : cache.delete other = .ok after)
    (h : after.Holds key value expires) : key ≠ other ∧ cache.Holds key value expires := by
  unfold delete at deleted
  split at deleted
  next => cases deleted; exact h.of_erase rfl
  next => cases deleted

end Statline.Cache
