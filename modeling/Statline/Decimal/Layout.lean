import Statline.Decimal.Shortest

namespace Statline.Decimal

/-- How the chosen digits are laid out. -/
structure Layout where
  tie : Tie
  /-- Whole numbers end in `.0`. -/
  pointed : Bool
  /-- The places of the decimal point, counted from the left end of the digits, between which
  numbers are written without an exponent; outside them an exponent with its sign follows. -/
  positional : Option (Int × Int)

def zeros (n : Nat) : List Char :=
  List.replicate n '0'

/-- The text of the digits with the decimal point after the first `point` of them. -/
def Layout.plain (layout : Layout) (digits : List Char) (point : Int) : List Char :=
  if point ≤ 0 then '0' :: '.' :: (zeros (-point).toNat ++ digits)
  else if digits.length ≤ point.toNat then
    digits ++ zeros (point.toNat - digits.length) ++ if layout.pointed then ['.', '0'] else []
  else digits.take point.toNat ++ '.' :: digits.drop point.toNat

def scientific (digits : List Char) (point : Int) : List Char :=
  let power := point - 1
  let sign := if power < 0 then '-' else '+'
  let mantissa := match digits with
    | first :: second :: rest => first :: '.' :: second :: rest
    | short => short
  mantissa ++ 'e' :: sign :: Nat.toDigits 10 power.natAbs

def Layout.magnitude (layout : Layout) (x : Binary) : List Char :=
  let d := x.shortest layout.tie
  let digits := Nat.toDigits 10 d.digits
  let point := digits.length + d.exponent
  match layout.positional with
  | none => layout.plain digits point
  | some (low, high) =>
    if d.digits = 0 || (low ≤ point && point ≤ high) then layout.plain digits point
    else scientific digits point

def Layout.write (layout : Layout) (x : Float) : String :=
  if x.isNaN then "NaN"
  else
    let sign := if x.toBits.toNat / Nat.pow 2 63 = 1 then "-" else ""
    if x.isInf then sign ++ "inf"
    else sign ++ String.ofList (layout.magnitude (Binary.ofBits x.toBits))

/-- Numbers in messages never carry an exponent, and whole numbers no point. -/
def message : Layout := ⟨.up, false, none⟩

end Statline.Decimal
