import Statline.Ranking
import Statline.Subsystem

namespace Statline

/-- A registered subsystem and how often it has been asked to contribute. -/
structure Seat where
  subsystem : Subsystem
  asked : Nat

namespace Seat

/-- The answer of a subsystem, with the output checked. -/
def answer (seat : Seat) (context : Context) (actor : Actor) :
    Except Fault (Option Output) := do
  seat.subsystem.validate actor
  match ← seat.subsystem.contribute seat.asked context actor with
  | some output =>
    output.validate
    return some output
  | none => return none

def isAsked (seat : Seat) (actor : Actor) : Bool :=
  seat.subsystem.isActive actor && (seat.subsystem.validate actor).isOk

end Seat

/-- The registered subsystems in the order of their registration. -/
structure Roster where
  seats : List Seat

namespace Roster

def empty : Roster := ⟨[]⟩

instance : Inhabited Roster := ⟨empty⟩

def seat? (roster : Roster) (id : String) : Option Seat :=
  roster.seats.find? (·.subsystem.id = id)

def get? (roster : Roster) (id : String) : Option Subsystem :=
  (roster.seat? id).map (·.subsystem)

def contains (roster : Roster) (id : String) : Bool :=
  roster.seats.any (·.subsystem.id = id)

def size (roster : Roster) : Nat :=
  roster.seats.length

def register (roster : Roster) (subsystem : Subsystem) : Except Fault Roster :=
  if Text.isBlank subsystem.id then .error (.invalidInput "subsystem ID cannot be empty")
  else if roster.contains subsystem.id then .error (.duplicateSubsystem subsystem.id)
  else .ok ⟨roster.seats ++ [⟨subsystem, 0⟩]⟩

def unregister (roster : Roster) (id : String) : Except Fault (Subsystem × Roster) :=
  match roster.get? id with
  | some subsystem => .ok (subsystem, ⟨roster.seats.filter (·.subsystem.id ≠ id)⟩)
  | none => .error (.subsystemNotFound id)

def all (roster : Roster) : List Subsystem :=
  roster.seats.map (·.subsystem)

/-- The seats in the order in which they are asked. -/
def seatsByPriority (roster : Roster) : List Seat :=
  ranked (·.subsystem.priority) roster.seats

def byPriority (roster : Roster) : List Subsystem :=
  ranked (·.priority) roster.all

def byPriorityRange (roster : Roster) (low high : Int64) : List Subsystem :=
  roster.byPriority.filter fun subsystem => low ≤ subsystem.priority && subsystem.priority ≤ high

def ids (roster : Roster) : List String :=
  (Table.tabulate (roster.all.map (·.id)) id).keys

/-- The priorities in use, highest first, each once. -/
def priorities (roster : Roster) : List Int64 :=
  (roster.byPriority.map (·.priority)).eraseDups

/-- How many subsystems have each priority, lowest priority first. -/
def distribution (roster : Roster) : List (Int64 × Nat) :=
  roster.priorities.reverse.map fun priority =>
    (priority, roster.all.countP (·.priority = priority))

def highestPriority (roster : Roster) : Option Int64 :=
  roster.priorities.head?

def lowestPriority (roster : Roster) : Option Int64 :=
  roster.priorities.getLast?

/-- The answers of the subsystems that are active for the actor, by descending priority. -/
def answers (roster : Roster) (context : Context) (actor : Actor) :
    List (Except Fault (Option Output)) :=
  (roster.seatsByPriority.filter (·.subsystem.isActive actor)).map (·.answer context actor)

/-- Counts a question to each of the seats that `asks` selects. -/
def countAsked (roster : Roster) (asks : Seat → Bool) : Roster :=
  ⟨roster.seats.map fun seat => if asks seat then { seat with asked := seat.asked + 1 } else seat⟩

/-- The roster after each subsystem has been asked about the actor. -/
def afterAsking (roster : Roster) (actor : Actor) : Roster :=
  roster.countAsked (·.isAsked actor)

/-- What one subsystem says about an actor. -/
structure Probe where
  isActive : Bool
  validation : Except Fault Unit
  contribution : Except Fault (Option Output)

/-- Asks a single subsystem, whether it is active or not. -/
def probe (roster : Roster) (id : String) (context : Context) (actor : Actor) :
    Option Probe × Roster :=
  match roster.seat? id with
  | none => (none, roster)
  | some seat =>
    (some {
      isActive := seat.subsystem.isActive actor
      validation := seat.subsystem.validate actor
      contribution := seat.subsystem.contribute seat.asked context actor },
      roster.countAsked (·.subsystem.id = id))

end Roster

end Statline
