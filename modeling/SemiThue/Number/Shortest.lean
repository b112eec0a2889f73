/-
The shortest decimals that name the numbers of the binary format.

A decimal names a number of the format when that number is the nearest one to it. Every number has
many names; the shortest ones have the fewest digits, and of these the one closest to the number is
shown. They are looked for on coarser grids first: with one digit, with two, and so on. On a grid only
the two points next to the number need to be tried, because what names it lies within an interval
around it. Seventeen digits are always enough.

A decimal is shown with a point as long as that stays short, and otherwise as a number times a power
of ten.
-/
import SemiThue.Number.Binary64

set_option autoImplicit false

namespace SemiThue.Number

/-- A power of ten. -/
def tenPow (e : Int) : Rat := if 0 ≤ e then (10 : Rat) ^ e.toNat else 1 / (10 : Rat) ^ (-e).toNat

/-- A whole number of units, each of which is a power of ten. -/
structure Decimal where
  /-- How many units there are. -/
  units : Nat
  /-- Which power of ten a unit is. -/
  exponent : Int
deriving DecidableEq, Repr

namespace Decimal

/-- The number that the decimal stands for. -/
def value (d : Decimal) : Rat := d.units * tenPow d.exponent

/-- The decimal names a number of the binary format. -/
def names (d : Decimal) (q : Rat) : Bool := nearestBinary64 d.value == q

/-- Moves zeros at the end of the units into the exponent. -/
def withoutZeros (units : Nat) (exponent : Int) : Decimal :=
  if 0 < units ∧ units % 10 = 0 then withoutZeros (units / 10) (exponent + 1) else ⟨units, exponent⟩
termination_by units
decreasing_by omega

/-- The one of two decimals that is closer to a number between them, or the even one of two that are
equally close. -/
def closer (q : Rat) (below above : Decimal) : Decimal :=
  if q - below.value < above.value - q then below
  else if above.value - q < q - below.value then above
  else if below.units % 2 = 0 then below
  else above

/-- A name of a number on the grid of a power of ten. -/
def onGrid? (q : Rat) (exponent : Int) : Option Decimal :=
  let units := (q / tenPow exponent).floor.toNat
  let below : Decimal := ⟨units, exponent⟩
  let above : Decimal := ⟨units + 1, exponent⟩
  match below.names q, above.names q with
  | true, true => some (closer q below above)
  | true, false => some below
  | false, true => some above
  | false, false => none

/-- How many digits a positive number has before the point; a number below one has zeros after it
instead, and they count negatively. -/
def size (q : Rat) : Int :=
  if 1 ≤ q then (toString q.floor).length
  else
    let places : Int := (toString (1 / q).floor).length
    if q = tenPow (1 - places) then 2 - places else 1 - places

/-- The greatest number of digits that is ever needed. -/
def mostDigits : Nat := 17

/-- **A shortest name** of a positive number of the binary format. -/
def shortest (q : Rat) : Decimal :=
  let grid (digits : Nat) : Int := size q - digits
  let found := (List.range mostDigits).findSome? fun n => onGrid? q (grid (n + 1))
  let d := found.getD ⟨(q / tenPow (grid mostDigits)).floor.toNat, grid mostDigits⟩
  withoutZeros d.units d.exponent

/-- So many zeros. -/
def zeros (n : Int) : String := String.ofList (List.replicate n.toNat '0')

/-- The decimal times a power of ten, with one digit before the point and an exponent of at least two
digits. -/
def scientific (digits : List Char) (exponent : Int) : String :=
  let fraction := if digits.length ≤ 1 then "" else "." ++ String.ofList (digits.drop 1)
  let sign := if exponent < 0 then "-" else "+"
  s!"{String.ofList (digits.take 1)}{fraction}e{sign}{padded 2 exponent.natAbs}"

/-- **The decimal in writing.** It has a point if no more than sixteen digits stand before that and no
more than three zeros follow it before the first other digit. -/
def written (d : Decimal) : String :=
  let digits := (toString d.units).toList
  let point : Int := digits.length + d.exponent
  if point ≤ -4 ∨ 16 < point then scientific digits (point - 1)
  else if point ≤ 0 then s!"0.{zeros (-point)}{d.units}"
  else if digits.length ≤ point then s!"{d.units}{zeros (point - digits.length)}.0"
  else s!"{String.ofList (digits.take point.toNat)}.{String.ofList (digits.drop point.toNat)}"

end Decimal

/-- The sign before a number. -/
def signBefore (negative : Bool) : String := if negative then "-" else ""

/-- **A value of the binary format in writing.** -/
def Binary64.written : Binary64 → String
  | finite negative magnitude =>
    if magnitude = 0 then s!"{signBefore negative}0.0"
    else s!"{signBefore negative}{(Decimal.shortest magnitude).written}"
  | infinite negative => s!"{signBefore negative}inf"
  | undefined => "nan"

end SemiThue.Number
