/-
Rounding to whole numbers, and decimals with three places.

A number that lies halfway between two whole numbers goes to the even one. Decimals are printed from
the exact value, rounded once.
-/
import SemiThue.Text.Basic

set_option autoImplicit false

namespace SemiThue.Number

/-- **The nearest whole number**, the even one of two that are equally near. -/
def nearestInt (q : Rat) : Int :=
  let below := q.floor
  let rest := q - below
  if rest < 1 / 2 then below
  else if 1 / 2 < rest then below + 1
  else if below % 2 = 0 then below
  else below + 1

/-- A text filled up with zeros in front to a least length. -/
def zeroPadded (width : Nat) (s : String) : String :=
  String.ofList (List.replicate (width - s.length) '0' ++ s.toList)

/-- A natural number with at least so many digits. -/
def padded (width n : Nat) : String := zeroPadded width (toString n)

/-- A number of thousandths as a decimal with three places. -/
def decimal3 (thousandths : Nat) : String := s!"{thousandths / 1000}.{padded 3 (thousandths % 1000)}"

/-- A number that is not negative, rounded to three places. -/
def rounded3 (q : Rat) : String := decimal3 (nearestInt (q * 1000)).toNat

end SemiThue.Number
