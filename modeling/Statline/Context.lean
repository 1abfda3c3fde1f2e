import Statline.Fault
import Statline.Json.Basic

namespace Statline

/-- The reading of the clock, in nanoseconds, and the cancellation signals raised so far. -/
structure Moment where
  now : Nat
  raised : List Nat

/-- What travels with a request: data for the subsystems, a signal that cancels it and a deadline.
Contexts with the same signal are cancelled together. -/
structure Context where
  data : Table Json
  signal : Option Nat
  deadline : Option Nat

namespace Context

def empty : Context := ⟨Table.empty, none, none⟩

instance : Inhabited Context := ⟨empty⟩

/-- The last instant that the clock can show. -/
def lastInstant : Nat :=
  Nat.pow 2 63 * 1000000000 - 1

/-- A timeout that ends beyond the last instant sets no deadline. -/
def withTimeout (now timeout : Nat) : Context :=
  { empty with deadline := if now + timeout ≤ lastInstant then some (now + timeout) else none }

def set (context : Context) (key : String) (value : Json) : Context :=
  { context with data := context.data.insert key value }

def get? (context : Context) (key : String) : Option Json :=
  context.data.get? key

def isCancelled (context : Context) (moment : Moment) : Bool :=
  context.signal.any fun signal => moment.raised.contains signal

/-- Cancellation is reported before a missed deadline. -/
def check (context : Context) (moment : Moment) : Except Fault Unit :=
  if context.isCancelled moment then .error .cancelled
  else if context.deadline.any (· ≤ moment.now) then .error .deadlineExceeded
  else .ok ()

end Context

end Statline
