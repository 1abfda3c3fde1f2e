import Statline.Caps
import Statline.Table

namespace Statline

structure Actor where
  id : String
  version : Int64
deriving DecidableEq

/-- The resolved values of an actor and the ranges that bounded them. The time at which they were
resolved is left out, as nothing is computed from it. -/
structure Snapshot where
  actorId : String
  primary : Table Float
  derived : Table Float
  capsUsed : Table Caps
  version : Int64
deriving DecidableEq

namespace Snapshot

def empty (actor : Actor) : Snapshot :=
  ⟨actor.id, Table.empty, Table.empty, Table.empty, actor.version⟩

/-- Primary values hide derived ones. -/
def value? (snapshot : Snapshot) (dimension : String) : Option Float :=
  (snapshot.primary.get? dimension).or (snapshot.derived.get? dimension)

/-- Whether two tables have the same names with values that agree. -/
def sameEntries {α : Type} (agree : α → α → Bool) (a b : Table α) : Bool :=
  a.keys = b.keys &&
    (a.entries.zip b.entries).all fun (left, right) => agree left.2 right.2

/-- Equality of numbers, by which -0 is 0 and what is not a number differs from itself. -/
def sameValues (a b : Snapshot) : Bool :=
  a.actorId = b.actorId && a.version = b.version &&
    sameEntries (· == ·) a.primary b.primary &&
    sameEntries (· == ·) a.derived b.derived &&
    sameEntries (fun r s => r.min == s.min && r.max == s.max) a.capsUsed b.capsUsed

end Snapshot

end Statline
