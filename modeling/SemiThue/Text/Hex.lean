/-
Hexadecimal numerals of a fixed width, as quoted texts and reports on bytes show them.
-/
import SemiThue.Text.Basic

set_option autoImplicit false

namespace SemiThue.Text

/-- The last `width` hexadecimal digits of a number. -/
def hex : Nat → Nat → Text
  | 0, _ => []
  | width + 1, n => hex width (n / 16) ++ [Nat.digitChar (n % 16)]

@[simp] theorem length_hex (width n : Nat) : (hex width n).length = width := by
  induction width generalizing n with
  | zero => rfl
  | succ width ih => simp [hex, ih]

end SemiThue.Text
