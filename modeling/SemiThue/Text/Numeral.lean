/-
Reading whole numbers.

A numeral may be surrounded by blanks, carries at most one sign, and consists of decimal digits of any
script, with single underscores between two digits. It has at most 4300 digits, leading zeros counted
and underscores not. The information separators, blank elsewhere, are not blank here.
-/
import SemiThue.Text.Blank
import SemiThue.Text.Digit

set_option autoImplicit false

namespace SemiThue.Text

/-- The most digits a numeral may have. -/
def maxDigits : Nat := 4300

/-- The values of a row of digits, in which a single underscore may separate two digits. -/
def digits? : Text → Option (List Nat)
  | [] => none
  | [c] => (digit? c).map ([·])
  | c :: '_' :: rest => (digit? c).bind fun d => (digits? rest).map (d :: ·)
  | c :: rest => (digit? c).bind fun d => (digits? rest).map (d :: ·)

/-- The number with the given decimal digits, the most significant first. -/
def ofDigits (digits : List Nat) : Nat := digits.foldl (fun n d => 10 * n + d) 0

/-- The natural number that a row of digits stands for. -/
def nat? (t : Text) : Option Nat :=
  (digits? t).bind fun digits => if digits.length ≤ maxDigits then some (ofDigits digits) else none

/-- The characters that may surround a numeral. -/
def isMargin (c : Char) : Bool := isBlank c && !(0x1C ≤ c.toNat && c.toNat ≤ 0x1F)

/-- The whole number that a text stands for. -/
def int? (t : Text) : Option Int :=
  match trimWith isMargin t with
  | '-' :: rest => (nat? rest).map fun n => -(n : Int)
  | '+' :: rest => (nat? rest).map fun n => (n : Int)
  | rest => (nat? rest).map fun n => (n : Int)

@[simp] theorem ofDigits_nil : ofDigits [] = 0 := rfl

end SemiThue.Text
