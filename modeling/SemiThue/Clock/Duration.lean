/-
Durations as they may be given.

Beside the durations that a clock can measure, these are what else the binary format holds: endless
ones, and one that is no number. Not all of them can be shown in every way. Only what is finite can be
counted in minutes, and a whole number of seconds is shown as a decimal by way of the binary format, in
which it must have a place.
-/
import SemiThue.Clock.Seconds
import SemiThue.Fault

set_option autoImplicit false

namespace SemiThue.Clock

/-- A duration as it may be given. -/
inductive Duration where
  /-- A duration that can be measured. -/
  | lasting (s : Seconds)
  /-- Without end, or without beginning. -/
  | endless (negative : Bool)
  /-- No number. -/
  | undefined
deriving DecidableEq, Repr

namespace Duration

/-- A value of the binary format as a duration. -/
def ofBinary64 : Number.Binary64 → Duration
  | .finite negative magnitude => lasting (.reading negative magnitude)
  | .infinite negative => endless negative
  | .undefined => undefined

/-- The duration with three places. -/
def decimal : Duration → Except Fault String
  | lasting (.whole n) =>
    if Number.beyondBinary64 ≤ Number.nearestBinary64 n.natAbs then .error .beyondFormat
    else .ok (Seconds.whole n).decimal
  | lasting s => .ok s.decimal
  | endless negative => .ok (if negative then "-inf" else "inf")
  | undefined => .ok "nan"

/-- The duration in hours, minutes and seconds. -/
def clock : Duration → Except Fault String
  | lasting s => .ok s.clock
  | _ => .error .uncountable

end Duration

end SemiThue.Clock
