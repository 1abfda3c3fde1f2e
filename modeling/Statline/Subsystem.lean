import Statline.Context
import Statline.Contribution
import Statline.Snapshot

namespace Statline

/-- A system that contributes to actors. -/
structure Subsystem where
  id : String
  priority : Int64
  isActive : Actor → Bool
  validate : Actor → Except Fault Unit
  /-- The answer may depend on how often the subsystem has been asked before. -/
  contribute : Nat → Context → Actor → Except Fault (Option Output)

namespace Subsystem

/-- Active for every actor and content with each of them. -/
def always (id : String) (priority : Int64)
    (contribute : Nat → Context → Actor → Except Fault (Option Output)) : Subsystem :=
  ⟨id, priority, fun _ => true, fun _ => .ok (), contribute⟩

/-- Contributes the same output to every actor; an empty one is no contribution. -/
def constant (id : String) (priority : Int64) (output : Output) : Subsystem :=
  always id priority fun _ _ _ => .ok (if output.isEmpty then none else some output)

end Subsystem

end Statline
