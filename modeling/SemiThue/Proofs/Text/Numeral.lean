/-
Reading back a number that was written.

A number below ten to the power of the most digits that a numeral may have is read back from its decimal digits.
Digits of other scripts, underscores and signs, which a numeral may hold as well, do not occur in what is written.
-/
import Mathlib.Data.List.Basic
import SemiThue.Proofs.Text.Trim
import SemiThue.Text.Numeral

set_option autoImplicit false

namespace SemiThue.Text

theorem toNat_of_isDigit {c : Char} (digit : c.isDigit = true) : 48 ≤ c.toNat ∧ c.toNat ≤ 57 := by
  rw [Char.isDigit, Bool.and_eq_true, decide_eq_true_eq, decide_eq_true_eq] at digit
  exact digit

/-- The value of a digit of the first script in the table. -/
theorem digit?_of_isDigit {c : Char} (digit : c.isDigit = true) : digit? c = some (c.toNat - 48) := by
  obtain ⟨least, most⟩ := toNat_of_isDigit digit
  rw [digit?, zeroDigits, List.find?_cons_of_pos (by simp [least, most])]
  rfl

/-- A row of digits without underscores is read digit by digit. -/
theorem digits?_of_isDigit {t : Text} (some_digit : t ≠ []) (digits : ∀ c ∈ t, c.isDigit = true) :
    digits? t = some (t.map fun c => c.toNat - 48) := by
  induction t with
  | nil => exact absurd rfl some_digit
  | cons c t ih =>
    have first := digit?_of_isDigit (digits c List.mem_cons_self)
    cases t with
    | nil => rw [digits?, first]; rfl
    | cons d t =>
      have no_underscore : d ≠ '_' := by
        rintro rfl
        exact absurd (digits '_' (by simp)) (by decide)
      rw [digits?, first, ih (List.cons_ne_nil _ _) fun e mem => digits e (List.mem_cons_of_mem c mem)]
      · rfl
      · exact List.cons_ne_nil _ _
      · rintro _ same
        exact no_underscore (List.cons.inj same).1

theorem ofDigits_map (t : Text) : ofDigits (t.map fun c => c.toNat - 48) = Nat.ofDigitChars 10 t 0 := by
  rw [ofDigits, List.foldl_map, Nat.ofDigitChars_eq_foldl]
  rfl

/-- The decimal digits of a number. -/
def decimal (n : Nat) : Text := Nat.toDigits 10 n

theorem decimal_ne_nil {n : Nat} : decimal n ≠ [] := Nat.toDigits_ne_nil

theorem isDigit_of_mem_decimal {n : Nat} {c : Char} (mem : c ∈ decimal n) : c.isDigit = true :=
  Nat.isDigit_of_mem_toDigits (by decide) (by decide) mem

/-- **A number is read back from its decimal digits** if there are not too many of them. -/
theorem nat?_decimal {n : Nat} (few : (decimal n).length ≤ maxDigits) : nat? (decimal n) = some n := by
  rw [nat?, digits?_of_isDigit decimal_ne_nil fun _ => isDigit_of_mem_decimal, Option.bind_some,
    List.length_map, if_pos few, ofDigits_map, decimal, Nat.ofDigitChars_ten_toDigits]

theorem isBlank_of_isDigit {c : Char} (digit : c.isDigit = true) : isBlank c = false := by
  obtain ⟨least, most⟩ := toNat_of_isDigit digit
  simp only [isBlank, blankRanges, inRanges]
  split
  · rfl
  · simp
    omega

/-- There is no sign in front and no blank around it that would have to be taken away. -/
theorem int?_decimal {n : Nat} (few : (decimal n).length ≤ maxDigits) : int? (decimal n) = some (n : Int) := by
  have untrimmed : trimWith isMargin (decimal n) = decimal n := by
    refine trimWith_eq_self fun c mem => ?_
    rw [isMargin, isBlank_of_isDigit (isDigit_of_mem_decimal mem), Bool.false_and]
  have value := nat?_decimal few
  rw [int?, untrimmed]
  split
  · rename_i rest written
    have sign : '-' ∈ decimal n := written ▸ List.mem_cons_self
    exact absurd (isDigit_of_mem_decimal sign) (by decide)
  · rename_i rest written
    have sign : '+' ∈ decimal n := written ▸ List.mem_cons_self
    exact absurd (isDigit_of_mem_decimal sign) (by decide)
  · rw [value]
    rfl

end SemiThue.Text
