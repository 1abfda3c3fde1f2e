import Statline.Vocabulary

namespace Statline

/-- Which entry gives way in a full cache. Every entry expires, so the volatile policies choose
among the same entries as the others. -/
inductive EvictionPolicy where
  | allkeysLru
  | allkeysLfu
  | volatileLru
  | volatileLfu
  | volatileTtl
  | noEviction
deriving DecidableEq

namespace EvictionPolicy

def all : List EvictionPolicy :=
  [allkeysLru, allkeysLfu, volatileLru, volatileLfu, volatileTtl, noEviction]

def name : EvictionPolicy → String
  | allkeysLru => "allkeys-lru"
  | allkeysLfu => "allkeys-lfu"
  | volatileLru => "volatile-lru"
  | volatileLfu => "volatile-lfu"
  | volatileTtl => "volatile-ttl"
  | noEviction => "noeviction"

/-- Callers may leave out the scope of the first two policies. -/
def shorthands : List (String × EvictionPolicy) :=
  [("lru", allkeysLru), ("lfu", allkeysLfu)]

instance : Vocabulary EvictionPolicy := ⟨"eviction policy", all, name, shorthands⟩

end EvictionPolicy

end Statline
