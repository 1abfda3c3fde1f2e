namespace Statline

/-- The value `digits * 10 ^ exponent`. -/
structure Decimal where
  digits : Nat
  exponent : Int
deriving DecidableEq

namespace Decimal

/-- A finite double without its sign: `significand * 2 ^ exponent`. -/
structure Binary where
  significand : Nat
  exponent : Int
  /-- The double below is half as far away as the double above. -/
  closeBelow : Bool
deriving DecidableEq

/-- The fifty-third bit of a significand, which is not stored. -/
def hiddenBit : Nat := Nat.pow 2 52

/-- Reads the fields of a finite double: eleven bits of exponent above fifty-two of fraction. -/
def Binary.ofBits (bits : UInt64) : Binary :=
  let field := bits.toNat / hiddenBit % 2048
  let fraction := bits.toNat % hiddenBit
  if field = 0 then ⟨fraction, -1074, false⟩
  else ⟨hiddenBit + fraction, (field : Int) - 1075, fraction = 0 && 1 < field⟩

/-- Whether `point * 10 ^ exponent` lies among the reals that round to `x`: between the midpoints
to its neighbours, which belong to `x` exactly when its significand is even. -/
def Binary.admits (x : Binary) (exponent : Int) (point : Nat) : Bool :=
  let unit := Nat.pow 2 (x.exponent - 2).toNat * Nat.pow 10 (-exponent).toNat
  let place := point * (Nat.pow 2 (2 - x.exponent).toNat * Nat.pow 10 exponent.toNat)
  let low := (4 * x.significand - if x.closeBelow then 1 else 2) * unit
  let high := (4 * x.significand + 2) * unit
  if x.significand % 2 = 0 then low ≤ place && place ≤ high else low < place && place < high

/-- Which of two equally close decimals is taken. -/
inductive Tie where
  | even
  | up
deriving DecidableEq

/-- The multiple of `10 ^ exponent` that is nearest to `x` among those that read back as `x`. -/
def Binary.nearestOnGrid (x : Binary) (tie : Tie) (exponent : Int) : Option Nat :=
  let value :=
    4 * x.significand * (Nat.pow 2 (x.exponent - 2).toNat * Nat.pow 10 (-exponent).toNat)
  let cell := Nat.pow 2 (2 - x.exponent).toNat * Nat.pow 10 exponent.toNat
  let below := value / cell
  match x.admits exponent below, x.admits exponent (below + 1) with
  | false, false => none
  | true, false => some below
  | false, true => some (below + 1)
  | true, true =>
    match compare (2 * value) ((2 * below + 1) * cell), tie with
    | .lt, _ => some below
    | .gt, _ => some (below + 1)
    | .eq, .up => some (below + 1)
    | .eq, .even => some (below + below % 2)

/-- A power of ten that is not below `x`. -/
def Binary.scale (x : Binary) : Int :=
  (x.exponent + x.significand.log2 + 1) * 30103 / 100000 + 1

/-- Moves trailing zeros from the digits into the exponent. -/
def normalize (d : Decimal) : Decimal :=
  if h : d.digits ≠ 0 ∧ d.digits % 10 = 0 then
    normalize ⟨d.digits / 10, d.exponent + 1⟩
  else d
termination_by d.digits
decreasing_by exact Nat.div_lt_self (Nat.pos_of_ne_zero h.1) (by decide)

/-- Every double is a decimal fraction. -/
def Binary.exact (x : Binary) : Decimal :=
  ⟨x.significand * Nat.pow 2 x.exponent.toNat * Nat.pow 5 (-x.exponent).toNat, min x.exponent 0⟩

/-- The decimal with the fewest digits that reads back as `x`, and of those the nearest one:
grids of powers of ten are tried from coarse to fine, and seventeen digits always suffice. -/
def Binary.shortest (x : Binary) (tie : Tie) : Decimal :=
  if x.significand = 0 then ⟨0, 0⟩
  else
    let found := (List.range 24).findSome? fun (i : Nat) =>
      let exponent := x.scale - i
      (x.nearestOnGrid tie exponent).map fun digits => (⟨digits, exponent⟩ : Decimal)
    (found.getD x.exact).normalize

end Decimal

end Statline
