/-
Quoted texts.

A text is shown between quotes so that every character of it can be told: single quotes, or double
ones when it holds a single and no double quote. The quote in use and the backslash are written after
a backslash, three controls have letters of their own, and any other character that is not printable
is written as its code point in hexadecimal, with two, four or eight digits as it needs.
-/
import SemiThue.Text.Basic
import SemiThue.Text.Hex
import SemiThue.Text.Printable

set_option autoImplicit false

namespace SemiThue.Text

/-- The quote that a text is put in. -/
def quoteFor (t : Text) : Char := if t.contains '\'' && !t.contains '"' then '"' else '\''

/-- A character as it is written between the given quotes. -/
def escape (quote c : Char) : Text :=
  if c = quote || c = '\\' then ['\\', c]
  else if c = '\n' then ['\\', 'n']
  else if c = '\r' then ['\\', 'r']
  else if c = '\t' then ['\\', 't']
  else if isPrintable c then [c]
  else if c.toNat < 0x100 then '\\' :: 'x' :: hex 2 c.toNat
  else if c.toNat < 0x10000 then '\\' :: 'u' :: hex 4 c.toNat
  else '\\' :: 'U' :: hex 8 c.toNat

/-- The text between quotes. -/
def quoted (t : Text) : String :=
  String.ofList (quoteFor t :: t.flatMap (escape (quoteFor t)) ++ [quoteFor t])

end SemiThue.Text
