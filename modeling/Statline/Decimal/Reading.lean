namespace Statline.Decimal

/-- Appends digits to a number as long as it fits 64 bits, and leaves the others. -/
def appendDigits (n : Nat) : List Char → Nat × List Char
  | [] => (n, [])
  | c :: rest =>
    let next := 10 * n + (c.toNat - '0'.toNat)
    if next < UInt64.size then appendDigits next rest else (n, c :: rest)

def powerOfTen (exponent : Nat) : Float :=
  Float.ofScientific 1 false exponent

/-- The greatest power of ten that a double holds. -/
def greatestPower : Nat := 308

/-- Divides by ten to the power of `exponent`, in steps that a double holds. Three steps bring the
largest significand to zero. -/
def scaleDown (x : Float) (exponent : Nat) : Float :=
  if exponent ≤ greatestPower then x / powerOfTen exponent
  else
    let smaller := x / powerOfTen greatestPower
    if exponent ≤ 2 * greatestPower then smaller / powerOfTen (exponent - greatestPower) else 0.0

/-- The double `significand * 10 ^ exponent`, computed from the nearest double of the significand
with one multiplication or division; none if it is too large. -/
def scale? (significand : Nat) (exponent : Int) : Option Float :=
  let x := Float.ofNat significand
  if significand = 0 then some 0.0
  else if exponent < 0 then some (scaleDown x exponent.natAbs)
  else if exponent.toNat ≤ greatestPower then
    let scaled := x * powerOfTen exponent.toNat
    if scaled.isInf then none else some scaled
  else none

end Statline.Decimal
