import Statline.Bucket
import Statline.Caps
import Statline.Text.Blank

namespace Statline

/-- What a system adds to one dimension. -/
structure Contribution where
  dimension : String
  bucket : Bucket
  value : Float
  system : String
  priority : Int64
deriving DecidableEq

/-- What a system asks of the caps of one dimension within one layer. -/
structure CapContribution where
  system : String
  dimension : String
  mode : CapMode
  value : Float
  priority : Int64
  scope : Layer
  realm : Option String
  tags : List String
deriving DecidableEq

/-- The system that an output came from. -/
structure Origin where
  system : String
  version : Int64
deriving DecidableEq

/-- All that one system contributes for one actor. -/
structure Output where
  primary : List Contribution
  derived : List Contribution
  caps : List CapContribution
  origin : Origin
deriving DecidableEq

def Contribution.validate (c : Contribution) : Except Fault Unit :=
  if Text.isBlank c.dimension then .error .emptyDimension
  else if Text.isBlank c.system then
    .error (.invalidInput ("contribution to " ++ c.dimension ++ " has no system"))
  else if c.value.isFinite then .ok ()
  else
    .error (.invalidInput
      ("contribution to " ++ c.dimension ++ " from " ++ c.system ++ " is not finite"))

def CapContribution.validate (c : CapContribution) : Except Fault Unit :=
  if Text.isBlank c.dimension then .error .emptyDimension
  else if Text.isBlank c.system then
    .error (.invalidInput ("cap on " ++ c.dimension ++ " has no system"))
  else if c.value.isFinite then .ok ()
  else .error (.invalidInput ("cap on " ++ c.dimension ++ " from " ++ c.system ++ " is not finite"))

namespace Output

def isEmpty (output : Output) : Bool :=
  output.primary.isEmpty && output.derived.isEmpty && output.caps.isEmpty

def validate (output : Output) : Except Fault Unit := do
  output.primary.forM Contribution.validate
  output.derived.forM Contribution.validate
  output.caps.forM CapContribution.validate

end Output

end Statline
