import Statline.Double
import Statline.Fault

namespace Statline

/-- The range in which a value is kept. -/
structure Caps where
  min : Float
  max : Float
deriving DecidableEq

/-- How a cap contribution acts on a range. -/
inductive CapMode where
  | baseline
  | additive
  | hardMax
  | hardMin
  | override
deriving DecidableEq

namespace CapMode

def all : List CapMode := [baseline, additive, hardMax, hardMin, override]

def name : CapMode → String
  | baseline => "BASELINE"
  | additive => "ADDITIVE"
  | hardMax => "HARD_MAX"
  | hardMin => "HARD_MIN"
  | override => "OVERRIDE"

instance : Vocabulary CapMode := ⟨"cap mode", all, name, []⟩

end CapMode

namespace Caps

def fixed (value : Float) : Caps := ⟨value, value⟩

/-- A range that a caller may set: two finite bounds in order. -/
def isValid (range : Caps) : Bool :=
  range.min.isFinite && range.max.isFinite && range.min ≤ range.max

def checked (dimension : String) (min max : Float) : Except Fault Caps :=
  if (Caps.mk min max).isValid then .ok ⟨min, max⟩ else .error (.invalidCaps dimension min max)

/-- An inverted range shrinks to its upper bound. -/
def normalized (range : Caps) : Caps :=
  if range.min > range.max then fixed range.max else range

/-- The nearest value of the range; what is not a number becomes the lower bound. -/
def clamp (range : Caps) (value : Float) : Float :=
  let number := if value.isNaN then range.min else value
  let raised := if number < range.min then range.min else number
  if raised > range.max then range.max else raised

def contains (range : Caps) (value : Float) : Bool :=
  value ≥ range.min && value ≤ range.max

def intersect (a b : Caps) : Caps :=
  ⟨Double.larger a.min b.min, Double.smaller a.max b.max⟩

def union (a b : Caps) : Caps :=
  ⟨Double.smaller a.min b.min, Double.larger a.max b.max⟩

def apply (range : Caps) (mode : CapMode) (value : Float) : Caps :=
  match mode with
  | .baseline | .override => fixed value
  | .additive => ⟨range.min + value, range.max + value⟩
  | .hardMax => ⟨range.min, value⟩
  | .hardMin => ⟨value, range.max⟩

end Caps

end Statline
