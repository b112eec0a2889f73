/-
The numbers that a binary floating-point format of 64 bits can hold.

They are the whole multiples of a power of two with at most 53 binary digits, the power being at least
the one with exponent -1074. Only the set of these numbers matters here: a value is kept as the exact
rational number, and arithmetic on it is exact arithmetic followed by a step to the nearest number of
the format.

Zero has a sign in the format, so the sign is kept apart from the magnitude. From a certain magnitude
on, what the format holds is infinite; and it has a value that is no number.
-/
import SemiThue.Number.Rounding

set_option autoImplicit false

namespace SemiThue.Number

/-- A power of two. -/
def twoPow (e : Int) : Rat := if 0 ≤ e then (2 : Rat) ^ e.toNat else 1 / (2 : Rat) ^ (-e).toNat

/-- The least exponent of the format. -/
def leastExponent : Int := -1074

/-- The exponent of the last binary digit that the format keeps of a positive number. -/
def lastExponent (q : Rat) : Int :=
  -- the number lies between 2 ^ (size - 1) and 2 ^ (size + 1)
  let size : Int := (q.num.natAbs.log2 : Int) - (q.den.log2 : Int)
  let e := if q < twoPow size then size - 53 else size - 52
  max e leastExponent

/-- **The number of the format nearest to a given one**, the one with the even last digit of two that
are equally near. -/
def nearestBinary64 (q : Rat) : Rat :=
  if q = 0 then 0
  else if q < 0 then -(nearestInt (-q / twoPow (lastExponent (-q))) * twoPow (lastExponent (-q)))
  else nearestInt (q / twoPow (lastExponent q)) * twoPow (lastExponent q)

/-- What is too great for the format: every number whose nearest one is at least this. -/
def beyondBinary64 : Rat := twoPow 1024

/-- A value of the format. -/
inductive Binary64 where
  /-- A number: its sign, and its exact magnitude. -/
  | finite (negative : Bool) (magnitude : Rat)
  /-- Greater than every number, or less. -/
  | infinite (negative : Bool)
  /-- No number. -/
  | undefined
deriving DecidableEq, Repr

/-- The value of the format that stands for a number, given by its sign and its magnitude. -/
def Binary64.nearest (negative : Bool) (magnitude : Rat) : Binary64 :=
  let q := nearestBinary64 magnitude
  if beyondBinary64 ≤ q then infinite negative else finite negative q

end SemiThue.Number
