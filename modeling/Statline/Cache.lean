import Statline.Cache.Policy
import Statline.Table
import Statline.Ttl

namespace Statline

structure CacheEntry (α : Type) where
  value : α
  /-- The instant from which on the entry is no longer served. -/
  expires : Nat
  /-- The tick of the latest store or hit. -/
  lastAccess : Nat
  /-- Hits since the entry was stored. -/
  hits : Nat
deriving DecidableEq

/-- A bounded store of values that expire. Instants are nanoseconds; ticks count the accesses. No
count is taken to reach 2^64. -/
structure Cache (α : Type) where
  entries : Table (CacheEntry α)
  capacity : Nat
  policy : EvictionPolicy
  clock : Nat
  hits : Nat
  misses : Nat
  evictions : Nat
deriving DecidableEq

structure CacheStats where
  hits : Nat
  misses : Nat
  evictions : Nat
  size : Nat
  maxSize : Nat
  memoryUsage : Nat
deriving DecidableEq

namespace CacheStats

def hitRate (stats : CacheStats) : Float :=
  let total := stats.hits + stats.misses
  if total = 0 then 0.0 else Float.ofNat stats.hits / Float.ofNat total

def usagePercentage (stats : CacheStats) : Float :=
  if stats.maxSize = 0 then 0.0
  else Float.ofNat stats.size / Float.ofNat stats.maxSize * 100.0

end CacheStats

def CacheEntry.isExpired {α : Type} (entry : CacheEntry α) (now : Nat) : Bool :=
  entry.expires ≤ now

namespace Cache

variable {α : Type}

/-- A cache holds one entry at least. -/
def create (maxSize : Nat) (policy : EvictionPolicy) : Cache α :=
  ⟨Table.empty, max maxSize 1, policy, 0, 0, 0, 0⟩

def size (cache : Cache α) : Nat :=
  cache.entries.size

def isEmpty (cache : Cache α) : Bool :=
  cache.entries.isEmpty

/-- The entries that are still served. -/
def live (cache : Cache α) (now : Nat) : Table (CacheEntry α) :=
  cache.entries.filter fun entry => !entry.isExpired now

def has (cache : Cache α) (now : Nat) (key : String) : Bool :=
  match cache.entries.get? key with
  | some entry => !entry.isExpired now
  | none => false

def keys (cache : Cache α) (now : Nat) : List String :=
  (cache.live now).keys

/-- Drops the expired entries. -/
def sweep (cache : Cache α) (now : Nat) : Cache α :=
  { cache with entries := cache.live now }

/-- How many entries a sweep drops, and the swept cache. -/
def cleanup (cache : Cache α) (now : Nat) : Nat × Cache α :=
  let swept := cache.sweep now
  (cache.size - swept.size, swept)

def resetStats (cache : Cache α) : Cache α :=
  { cache with hits := 0, misses := 0, evictions := 0 }

def clear (cache : Cache α) : Cache α :=
  resetStats { cache with entries := Table.empty }

def touch (cache : Cache α) (key : String) (entry : CacheEntry α) : Cache α :=
  { cache with
    entries := cache.entries.insert key
      { entry with lastAccess := cache.clock, hits := entry.hits + 1 }
    clock := cache.clock + 1
    hits := cache.hits + 1 }

/-- An expired entry that is asked for is dropped and counts as a miss. -/
def get (cache : Cache α) (now : Nat) (key : String) : Option α × Cache α :=
  match cache.entries.get? key with
  | none => (none, { cache with misses := cache.misses + 1 })
  | some entry =>
    if entry.isExpired now then
      (none, { cache with entries := cache.entries.erase key, misses := cache.misses + 1 })
    else (some entry.value, cache.touch key entry)

/-- What a policy compares; the smallest rank gives way first. -/
def rank (policy : EvictionPolicy) (entry : CacheEntry α) : Nat × Nat :=
  match policy with
  | .allkeysLru | .volatileLru | .noEviction => (0, entry.lastAccess)
  | .allkeysLfu | .volatileLfu => (entry.hits, entry.lastAccess)
  | .volatileTtl => (entry.expires, entry.lastAccess)

def precedes (a b : Nat × Nat) : Bool :=
  a.1 < b.1 || (a.1 = b.1 && a.2 < b.2)

/-- The first of the entries with the smallest rank. -/
def lowest (policy : EvictionPolicy) : List (String × CacheEntry α) → Option String
  | [] => none
  | first :: rest =>
    some (rest.foldl
      (fun least entry =>
        if precedes (rank policy entry.2) (rank policy least.2) then entry else least) first).1

def victim (cache : Cache α) : Option String :=
  match cache.policy with
  | .noEviction => none
  | policy => lowest policy cache.entries.entries

/-- Makes room for one entry: expired entries go first, and only then the policy chooses. -/
def makeRoom (cache : Cache α) (now : Nat) : Except Fault Unit × Cache α :=
  if cache.size < cache.capacity then (.ok (), cache)
  else
    let swept := cache.sweep now
    if swept.size < swept.capacity then (.ok (), swept)
    else
      match swept.victim with
      | some key =>
        (.ok (), { swept with
          entries := swept.entries.erase key
          evictions := swept.evictions + 1 })
      | none => (.error (.cacheFull swept.capacity), swept)

def store (cache : Cache α) (key : String) (value : α) (expires : Nat) : Cache α :=
  { cache with
    entries := cache.entries.insert key ⟨value, expires, cache.clock, 0⟩
    clock := cache.clock + 1 }

/-- A key that is stored already is replaced, even in a full cache. One reading of the clock stands
for the one by which room is made and the one from which the value lives. -/
def set (cache : Cache α) (now : Nat) (key : String) (value : α) (ttl : String) :
    Except Fault Unit × Cache α :=
  if key.isEmpty then (.error (.invalidInput "cache key cannot be empty"), cache)
  else
    match Ttl.parse ttl with
    | .error fault => (.error fault, cache)
    | .ok nanos =>
      if cache.entries.contains key then (.ok (), cache.store key value (now + nanos))
      else
        match cache.makeRoom now with
        | (.ok (), roomy) => (.ok (), roomy.store key value (now + nanos))
        | (.error fault, swept) => (.error fault, swept)

/-- Deletes an entry, expired or not. -/
def delete (cache : Cache α) (key : String) : Except Fault (Cache α) :=
  if cache.entries.contains key then .ok { cache with entries := cache.entries.erase key }
  else .error (.cacheKeyNotFound key)

/-- The bytes that an entry takes beside its key. -/
def entryBytes : Nat := 40

def stats (cache : Cache α) : CacheStats where
  hits := cache.hits
  misses := cache.misses
  evictions := cache.evictions
  size := cache.size
  maxSize := cache.capacity
  memoryUsage := cache.entries.keys.foldl (· + ·.utf8ByteSize) 0 + entryBytes * cache.size

end Cache

end Statline
