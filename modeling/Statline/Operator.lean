import Statline.Double
import Statline.Vocabulary

namespace Statline

/-- A plain fold over values, with no buckets. -/
inductive Operator where
  | sum
  | max
  | min
  | average
  | multiply
  | intersect
deriving DecidableEq

namespace Operator

def all : List Operator := [sum, max, min, average, multiply, intersect]

def name : Operator → String
  | sum => "SUM"
  | max => "MAX"
  | min => "MIN"
  | average => "AVERAGE"
  | multiply => "MULTIPLY"
  | intersect => "INTERSECT"

instance : Vocabulary Operator := ⟨"operator", all, name, []⟩

def isCommutative : Operator → Bool
  | intersect | average => false
  | _ => true

/-- The fold of no values is 0. -/
def combine (operator : Operator) : List Float → Float
  | [] => 0.0
  | first :: rest =>
    match operator with
    | sum => Double.sum (first :: rest)
    | max => rest.foldl Double.larger first
    | min | intersect => rest.foldl Double.smaller first
    | average => Double.sum (first :: rest) / Float.ofNat (rest.length + 1)
    | multiply => Double.product (first :: rest)

end Operator

end Statline
