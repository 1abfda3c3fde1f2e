import Statline.Double
import Statline.Fault
import Statline.Text.Blank

namespace Statline

inductive Term where
  | constant (value : Float)
  | scaled (stat : String) (factor : Float)
deriving DecidableEq

/-- One step of a formula, acting on the running value. -/
inductive Step where
  | flat (term : Term)
  | mult (term : Term)
  | clamp (min max : Float)
deriving DecidableEq

structure Formula where
  name : String
  deps : List String
  steps : List Step
deriving DecidableEq

namespace Term

def reads : Term → Option String
  | constant _ => none
  | scaled stat _ => some stat

def isFinite : Term → Bool
  | constant value => value.isFinite
  | scaled _ factor => factor.isFinite

def evaluate (lookup : String → Except Fault Float) : Term → Except Fault Float
  | constant value => .ok value
  | scaled stat factor => do return (← lookup stat) * factor

end Term

namespace Step

def term? : Step → Option Term
  | flat term | mult term => some term
  | clamp .. => none

/-- What is wrong with the step that stands at `index` in a formula with the dependencies. -/
def flaw (deps : List String) (index : Nat) : Step → Option String
  | clamp min max =>
    if min.isFinite && max.isFinite && min ≤ max then none
    else
      some ("step " ++ toString index ++ ": clamp window [" ++ Fault.number min ++ ", " ++
        Fault.number max ++ "] is invalid")
  | flat term | mult term =>
    if !term.isFinite then some ("step " ++ toString index ++ ": term is not finite")
    else
      match term.reads with
      | some stat =>
        if stat ∈ deps then none
        else
          some ("step " ++ toString index ++ " reads " ++ stat ++
            ", which is not a declared dependency")
      | none => none

def apply (lookup : String → Except Fault Float) (value : Float) : Step → Except Fault Float
  | flat term => do return value + (← term.evaluate lookup)
  | mult term => do return value * (← term.evaluate lookup)
  | clamp min max => .ok (Double.larger (Double.smaller value max) min)

end Step

namespace Formula

/-- What is wrong with the first bad dependency, given those before it. -/
def depFlaw (seen : List String) : List String → Option String
  | [] => none
  | dep :: rest =>
    if Text.isBlank dep then some "dependency name cannot be empty"
    else if dep ∈ seen then some ("dependency " ++ dep ++ " declared twice")
    else depFlaw (dep :: seen) rest

def stepFlaw (deps : List String) (index : Nat) : List Step → Option String
  | [] => none
  | step :: rest => (step.flaw deps index).or (stepFlaw deps (index + 1) rest)

def validate (formula : Formula) : Except Fault Unit :=
  if Text.isBlank formula.name then .error .emptyDimension
  else
    match (depFlaw [] formula.deps).or (stepFlaw formula.deps 0 formula.steps) with
    | some reason => .error (.invalidFormula formula.name reason)
    | none => .ok ()

/-- The steps act in order on a value that starts at 0. -/
def evaluate (formula : Formula) (lookup : String → Except Fault Float) : Except Fault Float :=
  formula.steps.foldlM (Step.apply lookup) 0.0

end Formula

end Statline
