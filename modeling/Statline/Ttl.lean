import Statline.Fault
import Statline.Text.Blank

namespace Statline.Ttl

def isNumeral (c : Char) : Bool :=
  c.isDigit || c = '.'

/-- A run of digits with one point at most, read as the nearest double. -/
def amount? (text : List Char) : Option Float :=
  let whole := text.takeWhile (· ≠ '.')
  let fraction := (text.dropWhile (· ≠ '.')).drop 1
  let digits := whole ++ fraction
  if digits.isEmpty || !digits.all Char.isDigit then none
  else
    let value := digits.foldl (fun n c => 10 * n + (c.toNat - '0'.toNat)) 0
    some (Float.ofScientific value true fraction.length)

/-- The nanoseconds in a unit. -/
def unit? (text : List Char) : Option Float :=
  match String.ofList text with
  | "ns" => some 1.0
  | "us" | "µs" => some 1e3
  | "ms" => some 1e6
  | "s" => some 1e9
  | "m" => some 60e9
  | "h" => some 3600e9
  | _ => none

/-- Adds up amounts, each followed by its unit. -/
def total (acc : Float) : List (List Char) → Option Float
  | [] => some acc
  | [_] => none
  | number :: unit :: rest => do total (acc + (← amount? number) * (← unit? unit)) rest

/-- The text cut where numerals and other characters meet. -/
def runs (text : List Char) : List (List Char) :=
  text.splitBy fun a b => isNumeral a == isNumeral b

/-- The nanoseconds of a text such as `1h30m`, rounded down; at least one and fewer than 2^64. -/
def parse (ttl : String) : Except Fault Nat :=
  let text := Text.trim ttl.toList
  match if text.isEmpty then none else total 0.0 (runs text) with
  | some nanos =>
    if nanos ≥ 1.0 && nanos < 18446744073709551616.0 then .ok nanos.toUInt64.toNat
    else .error (.invalidTtl ttl)
  | none => .error (.invalidTtl ttl)

end Statline.Ttl
