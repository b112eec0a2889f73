/-
The sink that shows words on a terminal, one a line.

There may be a status at the bottom of the terminal. A word is then written over it, filled up with
blanks to the length of the status, so that nothing of the status is left; and the status is drawn
again below, with the cursor put back to the beginning of its line.
-/
import SemiThue.Terminal.Transcript

set_option autoImplicit false

namespace SemiThue.Sink

/-- What is put around a text that is drawn. -/
structure Style where
  /-- What comes before it. -/
  before : Text := []
  /-- What comes after it. -/
  after : Text := []
deriving DecidableEq, Repr

/-- The text in a style. -/
def Style.apply (s : Style) (t : Text) : Text := s.before ++ t ++ s.after

/-- A sink that shows words on a terminal. -/
structure Console where
  /-- The status at each word to come, the last one staying, if there is a status. -/
  statuses : Option (List Text) := none
  /-- The style in which the status is drawn. -/
  style : Style := {}
  /-- All that was written. -/
  written : Terminal.Transcript := {}
deriving DecidableEq, Repr

namespace Console

/-- A status drawn, with the cursor at the beginning of its line. -/
def drawn (style : Style) (status : Text) : Text :=
  if status.isEmpty then [] else style.apply status ++ ['\r']

/-- **What is written for one word.** -/
def lineFor (style : Style) (word : Text) : Option Text → Text
  | none => word ++ ['\n']
  | some status =>
    word ++ List.replicate (status.length - word.length) ' ' ++ ['\n'] ++ drawn style status

/-- The status at the next word. -/
def status (c : Console) : Option Text := c.statuses.map fun l => l.headD []

/-- The statuses after the next word: the last one stays. -/
def later (c : Console) : Option (List Text) :=
  c.statuses.map fun
    | _ :: second :: others => second :: others
    | l => l

/-- Shows a word. -/
def write (c : Console) (word : Text) : Console :=
  { c with statuses := c.later, written := c.written.write (lineFor c.style word c.status) }

end Console

end SemiThue.Sink
