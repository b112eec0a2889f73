/-
What a clock shows, and what is read off it.

A duration is shown as hours, minutes and seconds with three places. `Face.read?` reads such a text: two digits for
the minutes, two and three for the seconds, and as many as there are for the hours. So what is shown can be compared
with the duration itself.

The whole minutes are split off before the rest is rounded to thousandths. As long as the binary format has room for
the seconds in the whole minutes, this loses nothing, and the reading is off by the rounding of the rest alone
(`Seconds.value_ofMinutes_sub`). But a rest in the last half thousandth before a full minute is rounded up to sixty
seconds, and nothing is carried over to the minutes then. Only there do the seconds show a number that a clock does
not have.
-/
import SemiThue.Clock.Seconds
import SemiThue.Proofs.Number.Rounding
import SemiThue.Proofs.Text.Numeral
import SemiThue.Proofs.Text.Pieces

set_option autoImplicit false

namespace SemiThue

/-! ## Digits -/

namespace Text

/-- The natural number that a row of digits shows. -/
def shown? (t : Text) : Option Nat :=
  if t ≠ [] ∧ t.all Char.isDigit then some (Nat.ofDigitChars 10 t 0) else none

theorem shown?_of_digits {t : Text} (some_digit : t ≠ []) (digits : ∀ c ∈ t, c.isDigit = true) :
    shown? t = some (Nat.ofDigitChars 10 t 0) := by
  rw [shown?, if_pos]
  exact ⟨some_digit, List.all_eq_true.2 digits⟩

/-- The decimal digits of a number, filled up with zeros in front. -/
def filled (width n : Nat) : Text := List.replicate (width - (decimal n).length) '0' ++ decimal n

variable {width n : Nat}

theorem isDigit_of_mem_filled {c : Char} (mem : c ∈ filled width n) : c.isDigit = true := by
  rw [filled, List.mem_append] at mem
  rcases mem with zero | digit
  · rw [List.eq_of_mem_replicate zero]
    rfl
  · exact isDigit_of_mem_decimal digit

theorem length_decimal_le (some_place : 0 < width) (few : n < 10 ^ width) : (decimal n).length ≤ width :=
  (Nat.length_toDigits_le_iff (by decide) some_place).2 few

theorem length_filled (some_place : 0 < width) (few : n < 10 ^ width) : (filled width n).length = width := by
  have short := length_decimal_le some_place few
  rw [filled, List.length_append, List.length_replicate]
  omega

theorem filled_ne_nil : filled width n ≠ [] := List.append_ne_nil_of_right_ne_nil _ decimal_ne_nil

/-- Zeros in front change nothing. -/
theorem ofDigitChars_filled (width n : Nat) : Nat.ofDigitChars 10 (filled width n) 0 = n := by
  rw [filled, Nat.ofDigitChars_append, Nat.ofDigitChars_replicate_zero, Nat.mul_zero, decimal,
    Nat.ofDigitChars_ten_toDigits]

/-- Digits behind a number move it to the left. -/
theorem ofDigitChars_append_filled (some_place : 0 < width) (few : n < 10 ^ width) (t : Text) :
    Nat.ofDigitChars 10 (t ++ filled width n) 0 = 10 ^ width * Nat.ofDigitChars 10 t 0 + n := by
  rw [Nat.ofDigitChars_append, Nat.ofDigitChars_eq_ofDigitChars_zero, length_filled some_place few,
    ofDigitChars_filled]

/-- No mark stands among digits. -/
theorem not_mem_of_digits {t : Text} {mark : Char} (digits : ∀ c ∈ t, c.isDigit = true)
    (no_digit : mark.isDigit = false) : mark ∉ t := by
  intro mem
  rw [digits mark mem] at no_digit
  cases no_digit

theorem not_mem_filled {mark : Char} (no_digit : mark.isDigit = false) : mark ∉ filled width n :=
  not_mem_of_digits (fun _ => isDigit_of_mem_filled) no_digit

/-- A number of thousandths, with two digits before the point if they are enough. -/
def thousandths (n : Nat) : Text := join ['.'] [filled 2 (n / 1000), filled 3 (n % 1000)]

theorem cut_thousandths (n : Nat) : (thousandths n).cut ['.'] = [filled 2 (n / 1000), filled 3 (n % 1000)] := by
  refine cut_join_singleton (List.cons_ne_nil _ _) fun piece among => ?_
  simp only [List.mem_cons, List.not_mem_nil, or_false] at among
  rcases among with rfl | rfl <;> exact not_mem_filled rfl

theorem colon_not_mem_thousandths (n : Nat) : ':' ∉ thousandths n := by
  rw [thousandths, join_cons_cons, join_singleton, List.mem_append, List.mem_append, not_or, not_or]
  exact ⟨⟨not_mem_filled rfl, by decide⟩, not_mem_filled rfl⟩

end Text

namespace Number

theorem toList_padded (width n : Nat) : (padded width n).toList = Text.filled width n := by
  rw [padded, zeroPadded, String.toList_ofList, Text.filled, Text.decimal, ← Nat.toList_repr, String.length_toList]
  rfl

theorem toList_decimal3 (n : Nat) :
    (decimal3 n).toList = Text.decimal (n / 1000) ++ ['.'] ++ Text.filled 3 (n % 1000) := by
  rw [← toList_padded, Text.decimal, ← Nat.toList_repr]
  simp only [decimal3, String.toList_append]
  rfl

theorem toList_zeroPadded_decimal3 (n : Nat) : (zeroPadded 6 (decimal3 n)).toList = Text.thousandths n := by
  have places : (Text.filled 3 (n % 1000)).length = 3 := Text.length_filled (by omega) (Nat.mod_lt _ (by omega))
  have length : (decimal3 n).length = (Text.decimal (n / 1000)).length + 4 := by
    rw [← String.length_toList, toList_decimal3, List.length_append, List.length_append, places,
      List.length_singleton]
  rw [zeroPadded, String.toList_ofList, toList_decimal3, length, Text.thousandths, Text.join_cons_cons,
    Text.join_singleton, Text.filled.eq_def 2, Nat.add_sub_add_right 2 4]
  simp only [List.append_assoc]

end Number

namespace Clock

/-! ## The face of a clock -/

/-- What a clock shows. -/
structure Face where
  /-- The hours. -/
  hours : Nat
  /-- The minutes. -/
  minutes : Nat
  /-- The seconds, in thousandths. -/
  thousandths : Nat
deriving DecidableEq, Repr

namespace Face

/-- The duration that is read off a clock, in seconds. -/
def value (f : Face) : Rat := 3600 * f.hours + 60 * f.minutes + f.thousandths / 1000

/-- **Reads hours, minutes and seconds**, written `H:MM:SS.mmm`. -/
def read? (t : Text) : Option Face :=
  match t.cut [':'] with
  | [hours, minutes, seconds] =>
    match seconds.cut ['.'] with
    | [whole, fraction] =>
      if minutes.length = 2 ∧ whole.length = 2 ∧ fraction.length = 3 then
        (Text.shown? hours).bind fun h => (Text.shown? minutes).bind fun m =>
          (Text.shown? (whole ++ fraction)).map fun s => ⟨h, m, s⟩
      else none
    | _ => none
  | _ => none

/-- The text on the face. -/
def toText (f : Face) : Text :=
  Text.join [':'] [Text.decimal f.hours, Text.filled 2 f.minutes, Text.thousandths f.thousandths]

theorem cut_toText (f : Face) :
    f.toText.cut [':'] = [Text.decimal f.hours, Text.filled 2 f.minutes, Text.thousandths f.thousandths] := by
  refine Text.cut_join_singleton (List.cons_ne_nil _ _) fun piece among => ?_
  simp only [List.mem_cons, List.not_mem_nil, or_false] at among
  rcases among with rfl | rfl | rfl
  · exact Text.not_mem_of_digits (fun _ => Text.isDigit_of_mem_decimal) rfl
  · exact Text.not_mem_filled rfl
  · exact Text.colon_not_mem_thousandths _

/-- **What a clock shows can be read off it**, if the minutes and the seconds have room on two places. -/
theorem read?_toText {f : Face} (minutes : f.minutes < 100) (seconds : f.thousandths < 100000) :
    read? f.toText = some f := by
  have before : f.thousandths / 1000 < 10 ^ 2 := by omega
  have behind : f.thousandths % 1000 < 10 ^ 3 := by omega
  have lengths : (Text.filled 2 f.minutes).length = 2 ∧ (Text.filled 2 (f.thousandths / 1000)).length = 2 ∧
      (Text.filled 3 (f.thousandths % 1000)).length = 3 := by
    refine ⟨Text.length_filled (by omega) minutes, Text.length_filled (by omega) before, ?_⟩
    exact Text.length_filled (by omega) behind
  have hours_shown : Text.shown? (Text.decimal f.hours) = some f.hours := by
    rw [Text.shown?_of_digits Text.decimal_ne_nil fun _ => Text.isDigit_of_mem_decimal, Text.decimal,
      Nat.ofDigitChars_ten_toDigits]
  have minutes_shown : Text.shown? (Text.filled 2 f.minutes) = some f.minutes := by
    rw [Text.shown?_of_digits Text.filled_ne_nil fun _ => Text.isDigit_of_mem_filled, Text.ofDigitChars_filled]
  have seconds_shown : Text.shown? (Text.filled 2 (f.thousandths / 1000) ++ Text.filled 3 (f.thousandths % 1000)) =
      some f.thousandths := by
    rw [Text.shown?_of_digits (List.append_ne_nil_of_left_ne_nil Text.filled_ne_nil _),
      Text.ofDigitChars_append_filled (by omega) behind, Text.ofDigitChars_filled]
    · rw [show 10 ^ 3 = 1000 by norm_num, Nat.div_add_mod]
    · intro c mem
      rcases List.mem_append.1 mem with mem | mem <;> exact Text.isDigit_of_mem_filled mem
  rw [read?, cut_toText]
  simp only [Text.cut_thousandths, if_pos lengths, hours_shown, minutes_shown, seconds_shown, Option.bind_some,
    Option.map_some]

/-- The face for a number of whole minutes and the rest. -/
def ofMinutes (minutes : Nat) (rest : Rat) : Face :=
  ⟨minutes / 60, minutes % 60, (Number.nearestInt (rest * 1000)).toNat⟩

theorem toList_hoursMinutesSeconds (minutes : Nat) (rest : Rat) :
    (hoursMinutesSeconds minutes rest).toList = (ofMinutes minutes rest).toText := by
  have hours : toString ((minutes : Int).fdiv 60) = Nat.repr (minutes / 60) := by
    rw [Int.fdiv_eq_ediv_of_nonneg _ (by omega)]
    rfl
  have within : ((minutes : Int).emod 60).toNat = minutes % 60 := rfl
  rw [toText, Text.join_cons_cons, Text.join_cons_cons, Text.join_singleton, ofMinutes, Text.decimal,
    ← Nat.toList_repr, ← Number.toList_padded, ← Number.toList_zeroPadded_decimal3]
  simp only [hoursMinutesSeconds, hours, within, Number.rounded3, String.toList_append]
  simp only [List.append_assoc]
  rfl

theorem minutes_ofMinutes (minutes : Nat) (rest : Rat) : (ofMinutes minutes rest).minutes < 60 :=
  Nat.mod_lt _ (by omega)

variable (minutes : Nat) {rest : Rat}

theorem cast_thousandths_ofMinutes (nonneg : 0 ≤ rest) :
    ((ofMinutes minutes rest).thousandths : Int) = Number.nearestInt (rest * 1000) :=
  Int.toNat_of_nonneg (Number.nearestInt_nonneg (by positivity))

/-- The seconds are off by the rounding of the rest. -/
theorem abs_thousandths_sub_le (nonneg : 0 ≤ rest) :
    |((ofMinutes minutes rest).thousandths : Rat) - rest * 1000| ≤ 1 / 2 := by
  have near := Number.abs_nearestInt_sub_le (rest * 1000)
  rwa [← cast_thousandths_ofMinutes minutes nonneg, Int.cast_natCast] at near

theorem thousandths_ofMinutes_le (nonneg : 0 ≤ rest) (within : rest < 60) :
    (ofMinutes minutes rest).thousandths ≤ 60000 := by
  have near := (abs_le.1 (abs_thousandths_sub_le minutes nonneg)).2
  have below : ((ofMinutes minutes rest).thousandths : Rat) < 60001 := by linarith
  have below : (ofMinutes minutes rest).thousandths < 60001 := by exact_mod_cast below
  omega

/-- **The seconds reach sixty exactly in the last half thousandth of a minute.** -/
theorem thousandths_ofMinutes_lt_iff (nonneg : 0 ≤ rest) (within : rest < 60) :
    (ofMinutes minutes rest).thousandths < 60000 ↔ rest < 60 - 1 / 2000 := by
  by_cases last : 59999 ≤ rest * 1000
  · -- the rest is rounded to one of two neighbours, the lower of which is odd
    have reached : (ofMinutes minutes rest).thousandths = 60000 ↔ 59999 + 1 / 2 ≤ rest * 1000 := by
      have rounds := Number.nearestInt_eq_add_one_iff (n := 59999) (q := rest * 1000) (by decide)
        (by exact_mod_cast last) (by push_cast; linarith)
      rw [← cast_thousandths_ofMinutes minutes nonneg] at rounds
      norm_num at rounds
      norm_num
      rw [← rounds]
      omega
    have most := thousandths_ofMinutes_le minutes nonneg within
    rw [Nat.lt_iff_le_and_ne, and_iff_right most, ne_eq, reached, not_le]
    constructor <;> intro h <;> linarith
  · have near := (abs_le.1 (abs_thousandths_sub_le minutes nonneg)).2
    have below : ((ofMinutes minutes rest).thousandths : Rat) < 60000 := by linarith
    constructor
    · intro _
      linarith
    · intro _
      exact_mod_cast below

end Face

/-! ## Splitting off the minutes -/

section Split

variable (round : Rat → Rat) {s : Rat}

/-- The whole minutes of a duration. -/
theorem minutes_le_and_lt (nonneg : 0 ≤ s) :
    0 ≤ ⌊s / 60⌋ ∧ 0 ≤ s - 60 * ⌊s / 60⌋ ∧ s - 60 * ⌊s / 60⌋ < 60 := by
  have below := Int.floor_le (s / 60)
  have above := Int.lt_floor_add_one (s / 60)
  refine ⟨Int.floor_nonneg.2 (by positivity), ?_, ?_⟩ <;> linarith

/-- The rest is exact, whatever rounding goes along with the division. -/
theorem splitMinutes_rest (nonneg : 0 ≤ s) : (splitMinutes round s).2 = s - 60 * ⌊s / 60⌋ := by
  have rest := (minutes_le_and_lt nonneg).2.1
  have not_negative : ¬s - 60 * (s / 60).floor < 0 := not_lt.2 rest
  simp only [splitMinutes, if_pos nonneg, if_neg not_negative]
  rfl

/-- The minutes are those nearest to the quotient of rounded seconds. -/
theorem splitMinutes_minutes (nonneg : 0 ≤ s) :
    (splitMinutes round s).1 =
      let quotient := round (round (60 * ⌊s / 60⌋) / 60)
      if 1 / 2 < quotient - ⌊quotient⌋ then ⌊quotient⌋ + 1 else ⌊quotient⌋ := by
  have rest := (minutes_le_and_lt nonneg).2.1
  have not_negative : ¬s - 60 * (s / 60).floor < 0 := not_lt.2 rest
  have whole : s - (s - 60 * (s / 60).floor) = 60 * ⌊s / 60⌋ := sub_sub_cancel _ _
  simp only [splitMinutes, if_pos nonneg, if_neg not_negative, whole]
  rfl

variable {round}

/-- No minutes get lost if there is room for their seconds and for themselves. -/
theorem splitMinutes_of_room (nonneg : 0 ≤ s) (seconds : round (60 * ⌊s / 60⌋) = 60 * ⌊s / 60⌋)
    (minutes : round ⌊s / 60⌋ = ⌊s / 60⌋) : (splitMinutes round s).1 = ⌊s / 60⌋ := by
  have quotient : (60 * ⌊s / 60⌋ : Rat) / 60 = ⌊s / 60⌋ := by ring
  rw [splitMinutes_minutes round nonneg]
  simp only [seconds, quotient, minutes, Int.floor_intCast, sub_self]
  norm_num

theorem splitMinutes_nonneg (round_nonneg : ∀ q, 0 ≤ q → 0 ≤ round q) (nonneg : 0 ≤ s) :
    0 ≤ (splitMinutes round s).1 := by
  have whole : (0 : Rat) ≤ ⌊s / 60⌋ := by exact_mod_cast (minutes_le_and_lt nonneg).1
  have seconds := round_nonneg _ (mul_nonneg (by norm_num : (0 : Rat) ≤ 60) whole)
  have quotient := Int.floor_nonneg.2 (round_nonneg _ (div_nonneg seconds (by norm_num : (0 : Rat) ≤ 60)))
  rw [splitMinutes_minutes round nonneg]
  simp only
  split <;> omega

end Split

/-! ## Durations and their readings -/

namespace Seconds

variable {s : Seconds}

/-- What is left of a duration behind its last full minute. -/
def rest (s : Seconds) : Rat := s.value - 60 * ⌊s.value / 60⌋

/-- **The arithmetic of the duration has room for it.** Whole seconds are divided exactly, and of a clock reading all
seconds are held that are less than 2 ^ 53. -/
def Fits (s : Seconds) : Prop := ∀ negative magnitude, s = .reading negative magnitude → s.value < 2 ^ 53

theorem rounding_nonneg (s : Seconds) : ∀ q, 0 ≤ q → 0 ≤ s.rounding q := by
  intro q nonneg
  cases s with
  | whole n => exact nonneg
  | reading negative magnitude => exact Number.nearestBinary64_nonneg nonneg

theorem rounding_natCast (fits : s.Fits) {n : Nat} (within : n ≤ s.value) : s.rounding n = n := by
  cases s with
  | whole n => rfl
  | reading negative magnitude =>
    have few := within.trans_lt (fits negative magnitude rfl)
    exact Number.nearestBinary64_natCast (by exact_mod_cast few)

/-- The minutes that are split off are the whole minutes of the duration. -/
theorem splitMinutes_of_fits (fits : s.Fits) (begun : 0 ≤ s.value) :
    (splitMinutes s.rounding s.value).1 = ⌊s.value / 60⌋ := by
  obtain ⟨whole, left, -⟩ := minutes_le_and_lt begun
  obtain ⟨minutes, count⟩ := Int.eq_ofNat_of_zero_le whole
  rw [count, Int.cast_natCast] at left
  have fewer : (minutes : Rat) ≤ s.value := by
    have : (0 : Rat) ≤ minutes := Nat.cast_nonneg _
    linarith
  have seconds : s.rounding (60 * minutes) = 60 * minutes := by
    have held := rounding_natCast fits (n := 60 * minutes) (by push_cast; linarith)
    push_cast at held
    exact held
  refine splitMinutes_of_room begun ?_ ?_
  · rw [count, Int.cast_natCast, seconds]
  · rw [count, Int.cast_natCast, rounding_natCast fits fewer]

/-- What is shown is the face for the minutes that were split off and the rest. -/
theorem toList_clock (begun : 0 ≤ s.value) :
    s.clock.toList = (Face.ofMinutes (splitMinutes s.rounding s.value).1.toNat s.rest).toText := by
  have minutes := Int.toNat_of_nonneg (splitMinutes_nonneg s.rounding_nonneg begun)
  rw [← Face.toList_hoursMinutesSeconds, minutes, rest, ← splitMinutes_rest s.rounding begun]
  rfl

/-- The reading is off by the minutes that got lost and by the rounding of the rest. -/
theorem value_ofMinutes_sub (minutes : Nat) (s : Seconds) :
    (Face.ofMinutes minutes s.rest).value - s.value =
      60 * (minutes - ⌊s.value / 60⌋) + ((Face.ofMinutes minutes s.rest).thousandths - s.rest * 1000) / 1000 := by
  have parts : (60 * (minutes / 60 : Nat) + (minutes % 60 : Nat) : Rat) = minutes := by
    exact_mod_cast Nat.div_add_mod minutes 60
  rw [Face.value, Face.ofMinutes]
  simp only [rest]
  linarith

/-- **A reading is faithful exactly if its minutes are.** One minute would be far more than what is lost by rounding
the rest. -/
theorem abs_value_sub_le_iff (minutes : Nat) (begun : 0 ≤ s.value) :
    |(Face.ofMinutes minutes s.rest).value - s.value| ≤ 1 / 2000 ↔ (minutes : Int) = ⌊s.value / 60⌋ := by
  have left : 0 ≤ s.rest := (minutes_le_and_lt begun).2.1
  obtain ⟨low, high⟩ := abs_le.1 (Face.abs_thousandths_sub_le minutes left)
  rw [value_ofMinutes_sub, abs_le]
  constructor
  · rintro ⟨below, above⟩
    have less : (minutes : Rat) < ⌊s.value / 60⌋ + 1 := by linarith
    have more : (⌊s.value / 60⌋ : Rat) < minutes + 1 := by linarith
    have less : (minutes : Int) < ⌊s.value / 60⌋ + 1 := by exact_mod_cast less
    have more : ⌊s.value / 60⌋ < (minutes : Int) + 1 := by exact_mod_cast more
    omega
  · intro same
    rw [← same, Int.cast_natCast, sub_self]
    constructor <;> linarith

/-- **The time that is shown can be read off.** The minutes are less than sixty, and the seconds are no more than
that; they are less unless the duration ends in the last half thousandth before a full minute. What is read off
differs from the duration by at most half a thousandth if the whole minutes are right, and only then. They are right
for all whole seconds, and for every clock reading below 2 ^ 53 seconds. -/
theorem clock_is_read_back (s : Seconds) (begun : 0 ≤ s.value) :
    ∃ face, Face.read? s.clock.toList = some face ∧ face.minutes < 60 ∧ face.thousandths ≤ 60000 ∧
      (face.thousandths < 60000 ↔ s.rest < 60 - 1 / 2000) ∧
      (|face.value - s.value| ≤ 1 / 2000 ↔ (60 * face.hours + face.minutes : Int) = ⌊s.value / 60⌋) ∧
      (s.Fits → |face.value - s.value| ≤ 1 / 2000) := by
  obtain ⟨-, left, within⟩ := minutes_le_and_lt begun
  have shown := toList_clock begun
  have minutes := Int.toNat_of_nonneg (splitMinutes_nonneg s.rounding_nonneg begun)
  generalize split : (splitMinutes s.rounding s.value).1.toNat = m at shown minutes
  have below : (Face.ofMinutes m s.rest).minutes < 60 := Face.minutes_ofMinutes m s.rest
  have most : (Face.ofMinutes m s.rest).thousandths ≤ 60000 := Face.thousandths_ofMinutes_le m left within
  have whole : (60 * (Face.ofMinutes m s.rest).hours + (Face.ofMinutes m s.rest).minutes : Int) = m := by
    exact_mod_cast Nat.div_add_mod m 60
  refine ⟨Face.ofMinutes m s.rest, ?_, below, most, Face.thousandths_ofMinutes_lt_iff m left within, ?_, ?_⟩
  · rw [shown, Face.read?_toText (by omega) (by omega)]
  · rw [whole, abs_value_sub_le_iff m begun]
  · intro fits
    rw [abs_value_sub_le_iff m begun, minutes, splitMinutes_of_fits fits begun]

/-- Just before an hour the minutes are still right, and the seconds are sixty. -/
theorem clock_is_read_back_before_the_hour :
    let s : Seconds := .reading false (3600 - 1 / 8192)
    0 ≤ s.value ∧ s.clock = "0:59:60.000" ∧ ∃ face, Face.read? s.clock.toList = some face ∧
      face.minutes < 60 ∧ ¬face.thousandths < 60000 ∧ |face.value - s.value| ≤ 1 / 2000 := by
  intro s
  have begun : 0 ≤ s.value := by decide +kernel
  have late : ¬s.rest < 60 - 1 / 2000 := by decide +kernel
  have fits : s.Fits := by
    intro negative magnitude _
    decide +kernel
  obtain ⟨face, read, minutes, -, less_iff, -, near⟩ := clock_is_read_back s begun
  exact ⟨begun, by decide +kernel, face, read, minutes, mt less_iff.1 late, near fits⟩

/-- **A clock can show sixty seconds.** A quarter of a thousandth before the first full minute it does, and what it
shows is then no time with less than sixty seconds. -/
theorem clock_shows_sixty_seconds :
    let s : Seconds := .reading false (60 - 1 / 4096)
    0 ≤ s.value ∧ s.clock = "0:00:60.000" ∧
      ¬∃ face, Face.read? s.clock.toList = some face ∧ face.minutes < 60 ∧ face.thousandths < 60000 ∧
        |face.value - s.value| ≤ 1 / 2000 := by
  intro s
  refine ⟨by decide +kernel, by decide +kernel, ?_⟩
  rintro ⟨face, read, -, below, -⟩
  have sixty : Face.read? s.clock.toList = some ⟨0, 0, 60000⟩ := by decide +kernel
  obtain rfl : face = ⟨0, 0, 60000⟩ := Option.some.inj (read.symm.trans sixty)
  exact absurd below (by decide)

end Seconds

end Clock

end SemiThue
