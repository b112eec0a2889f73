/-
Blanks: the characters that are trimmed from both ends of a text.

They are the ASCII controls that move the cursor, the four information separators, and the spaces and
separators of Unicode. The zero-width space and the byte order mark are not among them.
-/
import SemiThue.Text.Basic
import SemiThue.Text.Range

set_option autoImplicit false

namespace SemiThue.Text

/-- The ranges of code points that are blank. -/
def blankRanges : List (Nat × Nat) :=
  [(0x9, 0xD), (0x1C, 0x20), (0x85, 0x85), (0xA0, 0xA0), (0x1680, 0x1680), (0x2000, 0x200A),
   (0x2028, 0x2029), (0x202F, 0x202F), (0x205F, 0x205F), (0x3000, 0x3000)]

/-- The character is blank. -/
def isBlank (c : Char) : Bool := inRanges c.toNat blankRanges

/-- The text without the characters at both ends that satisfy the predicate. -/
def trimWith (p : Char → Bool) (t : Text) : Text := ((t.dropWhile p).reverse.dropWhile p).reverse

/-- The text without the blanks at both ends. -/
def trim (t : Text) : Text := trimWith isBlank t

@[simp] theorem trimWith_nil (p : Char → Bool) : trimWith p [] = [] := rfl

@[simp] theorem trim_nil : trim [] = [] := rfl

end SemiThue.Text
