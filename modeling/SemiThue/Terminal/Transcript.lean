/-
What was written to a terminal.

It is kept piece by piece, because it is written piece by piece and read as a whole only in the end.
-/
import SemiThue.Text.Basic

set_option autoImplicit false

namespace SemiThue.Terminal

/-- What was written to a terminal. -/
structure Transcript where
  /-- The pieces, the newest first. -/
  pieces : List Text := []
deriving DecidableEq, Repr

namespace Transcript

/-- All that was written, as one text. -/
def toText (t : Transcript) : Text := t.pieces.reverse.flatten

/-- Writes a piece. -/
def write (t : Transcript) (piece : Text) : Transcript := ⟨piece :: t.pieces⟩

@[simp] theorem toText_empty : ({} : Transcript).toText = [] := rfl

@[simp] theorem toText_write (t : Transcript) (piece : Text) :
    (t.write piece).toText = t.toText ++ piece := by
  simp [toText, write]

end Transcript

end SemiThue.Terminal
