import Statline.Table

namespace Statline

/-- A document. Objects keep their fields as they stand, repetitions included. -/
inductive Json where
  | null
  | bool (value : Bool)
  /-- A whole number without point or exponent that fits 64 bits, signed or unsigned. -/
  | int (value : Int)
  | float (value : Float)
  | str (text : String)
  | arr (items : List Json)
  | obj (fields : List (String × Json))
  /-- Well-formed text whose value is beyond the representable: a number too large for a double,
  or a string with half of a surrogate pair. It may stand where nothing reads it. -/
  | garbled

namespace Json

instance : Inhabited Json := ⟨null⟩

def bool? : Json → Option Bool
  | bool value => some value
  | _ => none

/-- A whole number between two bounds, both included. -/
def int? (low high : Int) : Json → Option Int
  | int n => if low ≤ n && n ≤ high then some n else none
  | _ => none

/-- Whole numbers are read as the nearest double. -/
def float? : Json → Option Float
  | int n => some (Float.ofInt n)
  | float value => some value
  | _ => none

def str? : Json → Option String
  | str text => some text
  | _ => none

def arr? : Json → Option (List Json)
  | arr items => some items
  | _ => none

def obj? : Json → Option (List (String × Json))
  | obj fields => some fields
  | _ => none

mutual

/-- The value with each object in ascending order of names, the last of repeated fields counting;
none if a part of it is garbled. -/
def settle : Json → Option Json
  | garbled => none
  | arr items => (settleItems items).map arr
  | obj fields => (settleFields fields).map fun settled => obj (Table.ofList settled).entries
  | value => some value

def settleItems : List Json → Option (List Json)
  | [] => some []
  | item :: rest => do return (← settle item) :: (← settleItems rest)

def settleFields : List (String × Json) → Option (List (String × Json))
  | [] => some []
  | (name, value) :: rest => do return (name, ← settle value) :: (← settleFields rest)

end

mutual

/-- How deep arrays and objects are nested. -/
def depth : Json → Nat
  | arr items => depthItems items + 1
  | obj fields => depthFields fields + 1
  | _ => 0

def depthItems : List Json → Nat
  | [] => 0
  | item :: rest => max (depth item) (depthItems rest)

def depthFields : List (String × Json) → Nat
  | [] => 0
  | (_, value) :: rest => max (depth value) (depthFields rest)

end

end Json

end Statline
