/-
Durations in seconds, and how they are shown.

A duration is a whole number of seconds, or a number of the binary format in which clocks are read; of
the latter the sign is kept apart, because zero has one. It is shown as a decimal with three places,
or as hours, minutes and seconds.

For hours, minutes and seconds the whole minutes are split off first, by floor division, and the rest
is rounded to three places afterwards. So a rest just below a minute is shown as sixty seconds. The
division is carried out in the arithmetic of the duration: exactly for whole seconds, and with every
step taken to the nearest number of the format for a clock reading.
-/
import SemiThue.Number.Binary64

set_option autoImplicit false

namespace SemiThue.Clock

/-- A duration in seconds. -/
inductive Seconds where
  /-- Whole seconds. -/
  | whole (n : Int)
  /-- A clock reading: its sign, and its exact magnitude. -/
  | reading (negative : Bool) (magnitude : Rat)
deriving DecidableEq, Repr

/-- Floor division by sixty, where each step is followed by a given rounding. The quotient of the
rounded steps may be a little off a whole number, and goes to the nearest one. -/
def splitMinutes (round : Rat → Rat) (s : Rat) : Int × Rat :=
  let whole : Int := if 0 ≤ s then (s / 60).floor else -(-s / 60).floor
  let rest := s - 60 * whole
  let quotient := round (round (s - rest) / 60)
  let quotient := if rest < 0 then round (quotient - 1) else quotient
  let rest := if rest < 0 then round (rest + 60) else rest
  let minutes := quotient.floor
  (if 1 / 2 < quotient - minutes then minutes + 1 else minutes, rest)

/-- Hours, minutes and seconds, from whole minutes and the rest. -/
def hoursMinutesSeconds (minutes : Int) (rest : Rat) : String :=
  let hours := minutes.fdiv 60
  let minutes := Number.padded 2 (minutes.emod 60).toNat
  s!"{hours}:{minutes}:{Number.zeroPadded 6 (Number.rounded3 rest)}"

namespace Seconds

/-- The exact value. -/
def value : Seconds → Rat
  | .whole n => n
  | .reading negative magnitude => if negative then -magnitude else magnitude

/-- No time at all. -/
def zero : Seconds := .reading false 0

/-- The duration with three places. -/
def decimal : Seconds → String
  | .whole n =>
    let q := Number.nearestBinary64 n
    if q < 0 then s!"-{Number.rounded3 (-q)}" else Number.rounded3 q
  | .reading negative magnitude =>
    if negative then s!"-{Number.rounded3 magnitude}" else Number.rounded3 magnitude

/-- The rounding that belongs to the arithmetic of a duration. -/
def rounding : Seconds → Rat → Rat
  | .whole _ => id
  | .reading .. => Number.nearestBinary64

/-- **The duration in hours, minutes and seconds.** -/
def clock (s : Seconds) : String :=
  match splitMinutes s.rounding s.value with
  | (minutes, rest) => hoursMinutesSeconds minutes rest

end Seconds

end SemiThue.Clock
