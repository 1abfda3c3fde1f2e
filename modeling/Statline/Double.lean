namespace Statline.Double

/-- The larger of two numbers; an operand that is not a number gives way to the other. -/
def larger (x y : Float) : Float :=
  if x.isNaN then y else if y.isNaN then x else if x < y then y else x

/-- The smaller of two numbers; an operand that is not a number gives way to the other. -/
def smaller (x y : Float) : Float :=
  if x.isNaN then y else if y.isNaN then x else if y < x then y else x

/-- Adds from left to right, starting at the neutral element of addition, which is -0. -/
def sum (xs : List Float) : Float :=
  xs.foldl (· + ·) (-0.0)

def product (xs : List Float) : Float :=
  xs.foldl (· * ·) 1.0

/-- The sixty-four bits in which a double is handed over. Patterns that are not numbers differ in
their bits, though the doubles that they stand for do not. -/
structure Pattern where
  bits : UInt64
deriving DecidableEq, Hashable

namespace Pattern

def ofFloat (x : Float) : Pattern := ⟨x.toBits⟩

def toFloat (pattern : Pattern) : Float := Float.ofBits pattern.bits

end Pattern

end Statline.Double
