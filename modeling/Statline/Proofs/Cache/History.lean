import Statline.Cache
import Statline.Proofs.Except
import Statline.Proofs.Table

namespace Statline.Cache

variable {α : Type}

/-- A call that a cache can be given. -/
inductive Call (α : Type) where
  | get (key : String)
  | set (key : String) (value : α) (ttl : String)
  | has (key : String)
  | keys
  | delete (key : String)
  | clear
  | cleanup
  | resetStats

/-- What a caller is told. -/
inductive Answer (α : Type) where
  | found (value : Option α)
  | outcome (result : Except Fault Unit)
  | present (is : Bool)
  | listed (keys : List String)
  | dropped (count : Nat)
  | silent
deriving DecidableEq

def answer (cache : Cache α) (now : Nat) : Call α → Answer α
  | .get key => .found (cache.get now key).1
  | .set key value ttl => .outcome (cache.set now key value ttl).1
  | .has key => .present (cache.has now key)
  | .keys => .listed (cache.keys now)
  | .delete key => .outcome ((cache.delete key).map fun _ => ())
  | .cleanup => .dropped (cache.cleanup now).1
  | .clear | .resetStats => .silent

/-- The cache after a call; a key that cannot be deleted leaves it as it was. -/
def call (cache : Cache α) (now : Nat) : Call α → Cache α
  | .get key => (cache.get now key).2
  | .set key value ttl => (cache.set now key value ttl).2
  | .has _ | .keys => cache
  | .delete key => (cache.delete key).toOption.getD cache
  | .clear => cache.clear
  | .cleanup => (cache.cleanup now).2
  | .resetStats => cache.resetStats

/-- The cache after calls, each at the instant that the clock shows. -/
def after (start : Cache α) (calls : List (Nat × Call α)) : Cache α :=
  calls.foldl (fun cache made => cache.call made.1 made.2) start

variable {cache : Cache α} {now : Nat} {key : String}

theorem delete_eq (cache : Cache α) (key : String) :
    (cache.delete key).toOption.getD cache = { cache with entries := cache.entries.erase key } := by
  unfold delete
  split
  next => rfl
  next absent =>
    have same : cache.entries.erase key = cache.entries := by
      refine Table.ext_get? fun other => ?_
      rw [Table.get?_erase]
      split
      next here =>
        subst here
        exact (by simpa [Table.contains] using absent : cache.entries.get? other = none).symm
      next => rfl
    rw [same]
    rfl

theorem makeRoom_cases (cache : Cache α) (now : Nat) :
    (cache.size < cache.capacity ∧ cache.makeRoom now = (.ok (), cache)) ∨
    (cache.capacity ≤ cache.size ∧ (cache.live now).size < cache.capacity ∧
      cache.makeRoom now = (.ok (), cache.sweep now)) ∨
    (cache.capacity ≤ (cache.live now).size ∧
      ((∃ key, (cache.sweep now).victim = some key ∧
        cache.makeRoom now = (.ok (), { cache.sweep now with
          entries := (cache.live now).erase key
          evictions := cache.evictions + 1 })) ∨
      ((cache.sweep now).victim = none ∧
        cache.makeRoom now = (.error (.cacheFull cache.capacity), cache.sweep now)))) := by
  unfold makeRoom
  split
  next room => exact .inl ⟨room, rfl⟩
  next full =>
    dsimp only
    split
    next room => exact .inr (.inl ⟨Nat.le_of_not_lt full, room, rfl⟩)
    next crowded =>
      refine .inr (.inr ⟨Nat.le_of_not_lt crowded, ?_⟩)
      split
      next key chosen => exact .inl ⟨key, chosen, rfl⟩
      next unchosen => exact .inr ⟨unchosen, rfl⟩

theorem set_cases (cache : Cache α) (now : Nat) (key : String) (value : α) (ttl : String) :
    (∃ fault, (key.isEmpty = true ∨ Ttl.parse ttl = .error fault) ∧
      cache.set now key value ttl = (.error fault, cache)) ∨
    ∃ nanos, Ttl.parse ttl = .ok nanos ∧
      ((cache.entries.contains key = true ∧
        cache.set now key value ttl = (.ok (), cache.store key value (now + nanos))) ∨
      (cache.entries.contains key = false ∧
        ((∃ roomy, cache.makeRoom now = (.ok (), roomy) ∧
          cache.set now key value ttl = (.ok (), roomy.store key value (now + nanos))) ∨
        ∃ fault swept, cache.makeRoom now = (.error fault, swept) ∧
          cache.set now key value ttl = (.error fault, swept)))) := by
  unfold set
  split
  next empty => exact .inl ⟨_, .inl empty, rfl⟩
  next =>
    split
    next fault unreadable => exact .inl ⟨fault, .inr unreadable, rfl⟩
    next nanos readable =>
      refine .inr ⟨nanos, readable, ?_⟩
      split
      next stored => exact .inl ⟨stored, rfl⟩
      next new =>
        refine .inr ⟨Bool.eq_false_iff.mpr new, ?_⟩
        split
        next roomy made => exact .inl ⟨roomy, made, rfl⟩
        next fault swept made => exact .inr ⟨fault, swept, made, rfl⟩

theorem mem_of_lowest {policy : EvictionPolicy} {entries : List (String × CacheEntry α)}
    (h : lowest policy entries = some key) : ∃ entry, (key, entry) ∈ entries := by
  cases entries with
  | nil => cases h
  | cons first rest =>
    cases h
    refine ⟨_, List.foldlRecOn (motive := (· ∈ first :: rest)) rest _ List.mem_cons_self ?_⟩
    intro least kept entry member
    split
    next => exact List.mem_cons_of_mem first member
    next => exact kept

theorem contains_of_victim (h : cache.victim = some key) : cache.entries.contains key = true := by
  unfold victim at h
  split at h
  next => cases h
  next => exact Table.contains_iff_mem_entries.mpr (mem_of_lowest h)

/-- No more entries than the cache has room for. -/
def Bounded (cache : Cache α) : Prop :=
  cache.size ≤ cache.capacity

theorem Bounded.of_le {after : Cache α} (h : cache.Bounded) (size : after.size ≤ cache.size)
    (capacity : after.capacity = cache.capacity) : after.Bounded := by
  unfold Bounded at h ⊢
  omega

theorem bounded_create (size : Nat) (policy : EvictionPolicy) :
    (create size policy : Cache α).Bounded :=
  Nat.zero_le _

theorem Bounded.sweep (h : cache.Bounded) (now : Nat) : (cache.sweep now).Bounded :=
  h.of_le (cache.entries.size_filter_le _) rfl

theorem Bounded.of_replace {after : Cache α} {entry : CacheEntry α} (h : cache.Bounded)
    (stored : cache.entries.contains key = true)
    (replaced : after.entries = cache.entries.insert key entry)
    (capacity : after.capacity = cache.capacity) : after.Bounded := by
  refine h.of_le ?_ capacity
  rw [size, replaced]
  exact Table.size_insert_of_contains stored entry

theorem bounded_store (room : cache.size < cache.capacity) (key : String) (value : α)
    (expires : Nat) : (cache.store key value expires).Bounded :=
  Nat.le_trans (cache.entries.size_insert_le key _) room

theorem Bounded.get (h : cache.Bounded) (now : Nat) (key : String) :
    (cache.get now key).2.Bounded := by
  unfold Cache.get
  split
  next => exact h
  next entry found =>
    split
    next => exact h.of_le (cache.entries.size_erase_le key) rfl
    next =>
      have stored : cache.entries.contains key = true := by simp [Table.contains, found]
      exact h.of_replace stored rfl rfl

/-- Room that was made is room for one entry. -/
theorem Bounded.size_lt_of_makeRoom (h : cache.Bounded) {roomy : Cache α}
    (made : cache.makeRoom now = (.ok (), roomy)) : roomy.size < roomy.capacity := by
  rcases cache.makeRoom_cases now with
    ⟨room, same⟩ | ⟨_, room, same⟩ | ⟨_, ⟨victim, chosen, same⟩ | ⟨_, same⟩⟩
  · cases same.symm.trans made
    exact room
  · cases same.symm.trans made
    exact room
  · cases same.symm.trans made
    exact Nat.lt_of_lt_of_le (Table.size_erase_lt (contains_of_victim chosen)) (h.sweep now)
  · cases same.symm.trans made

theorem Bounded.of_makeRoom_error (h : cache.Bounded) {swept : Cache α} {fault : Fault}
    (made : cache.makeRoom now = (.error fault, swept)) : swept.Bounded := by
  rcases cache.makeRoom_cases now with
    ⟨_, same⟩ | ⟨_, _, same⟩ | ⟨_, ⟨_, _, same⟩ | ⟨_, same⟩⟩
  · cases same.symm.trans made
  · cases same.symm.trans made
  · cases same.symm.trans made
  · cases same.symm.trans made
    exact h.sweep now

theorem Bounded.set (h : cache.Bounded) (now : Nat) (key : String) (value : α) (ttl : String) :
    (cache.set now key value ttl).2.Bounded := by
  rcases cache.set_cases now key value ttl with ⟨_, _, same⟩ |
    ⟨_, _, ⟨stored, same⟩ | ⟨_, ⟨_, made, same⟩ | ⟨_, _, made, same⟩⟩⟩ <;> rw [same]
  · exact h
  · exact h.of_replace stored rfl rfl
  · exact bounded_store (h.size_lt_of_makeRoom made) key value _
  · exact h.of_makeRoom_error made

theorem Bounded.call (h : cache.Bounded) (now : Nat) (made : Call α) :
    (cache.call now made).Bounded := by
  cases made with
  | get key => exact h.get now key
  | set key value ttl => exact h.set now key value ttl
  | has _ | keys => exact h
  | delete key =>
    simp only [Cache.call, delete_eq]
    exact h.of_le (cache.entries.size_erase_le key) rfl
  | clear => exact Nat.zero_le _
  | cleanup => exact h.sweep now
  | resetStats => exact h

/-- Whatever the calls, a cache never holds more entries than it has room for. -/
theorem Bounded.after (h : cache.Bounded) (calls : List (Nat × Call α)) :
    (cache.after calls).Bounded :=
  List.foldlRecOn (motive := Bounded) calls _ h fun _ bounded made _ => bounded.call made.1 made.2

end Statline.Cache
