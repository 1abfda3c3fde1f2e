import Statline.Context

namespace Statline

/-- Contexts by name, and the signals among them: cancelling one context cancels all that were
shared from the same beginning. -/
structure ContextPool where
  contexts : List (String × Context)
  signals : Nat
  raised : List Nat

namespace ContextPool

def empty : ContextPool := ⟨[], 0, []⟩

instance : Inhabited ContextPool := ⟨empty⟩

/-- An unknown name stands for the empty context. -/
def get (pool : ContextPool) (name : String) : Context :=
  ((pool.contexts.find? (·.1 = name)).map (·.2)).getD Context.empty

def put (pool : ContextPool) (name : String) (context : Context) : ContextPool :=
  { pool with contexts := (name, context) :: pool.contexts.filter (·.1 ≠ name) }

/-- Files a context under a name, with a signal of its own. -/
def start (pool : ContextPool) (name : String) (context : Context) : ContextPool :=
  put { pool with signals := pool.signals + 1 } name { context with signal := some pool.signals }

def share (pool : ContextPool) (source target : String) : ContextPool :=
  pool.put target (pool.get source)

def cancel (pool : ContextPool) (name : String) : ContextPool :=
  { pool with raised := (pool.get name).signal.toList ++ pool.raised }

def moment (pool : ContextPool) (now : Nat) : Moment :=
  ⟨now, pool.raised⟩

end ContextPool

end Statline
