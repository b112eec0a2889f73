/-
Lines of a text.

Eleven line ends are known: line feed, carriage return, the two together as one, vertical tab, form
feed, the file, group and record separators, next line, and the line and paragraph separators. A line
end closes a line and opens none: no empty line follows the last one. A text read from a file has its
carriage returns turned into line feeds first, a pair into a single one, which leaves the lines as
they were.
-/
import SemiThue.Text.Basic

set_option autoImplicit false

namespace SemiThue.Text

/-- The character ends a line on its own. -/
def isLineEnd (c : Char) : Bool :=
  [0xA, 0xB, 0xC, 0xD, 0x1C, 0x1D, 0x1E, 0x85, 0x2028, 0x2029].contains c.toNat

/-- Puts a character in front of the first line. -/
def prependToFirst (c : Char) : List Text → List Text
  | [] => [[c]]
  | line :: others => (c :: line) :: others

/-- The lines of a text, without their ends. -/
def lines : Text → List Text
  | [] => []
  | '\r' :: '\n' :: rest => [] :: lines rest
  | c :: rest => if isLineEnd c then [] :: lines rest else prependToFirst c (lines rest)

/-- Carriage returns, alone or before a line feed, become line feeds. -/
def unifyLineEnds : Text → Text
  | [] => []
  | '\r' :: '\n' :: rest => '\n' :: unifyLineEnds rest
  | c :: rest => (if c = '\r' then '\n' else c) :: unifyLineEnds rest

@[simp] theorem lines_nil : lines [] = [] := rfl

@[simp] theorem unifyLineEnds_nil : unifyLineEnds [] = [] := rfl

end SemiThue.Text
