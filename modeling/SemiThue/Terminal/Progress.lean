/-
The line at the bottom of the terminal that shows how far a run has got.

It is drawn anew from time to time, with the cursor put back to its beginning, and blanked in the end
to the length of the text that was drawn last.
-/
import SemiThue.Clock.Seconds
import SemiThue.Exploration.Outstanding
import SemiThue.Sink.Console

set_option autoImplicit false

namespace SemiThue.Terminal

/-- The line that shows how far a run has got. -/
structure Progress where
  /-- The text on it. -/
  text : Text := []
  /-- The style in which it is drawn. -/
  style : Sink.Style := {}
  /-- All that was written. -/
  written : Transcript := {}
deriving DecidableEq, Repr

namespace Progress

/-- Draws a text. -/
def draw (p : Progress) (text : Text) : Progress :=
  { p with text, written := p.written.write (p.style.apply text ++ ['\r']) }

/-- The text with which the line begins. -/
def opening : Text := "Processing...".toList

/-- Draws the line for the first time. -/
def start (p : Progress) : Progress := p.draw opening

/-- The text in the middle of a run. -/
def report (found : Nat) (took : Clock.Seconds) (outstanding : Exploration.Outstanding) : Text :=
  s!"Processing: found {found} words in {took.clock} [{outstanding} in flight]".toList

/-- Blanks the line. -/
def stop (p : Progress) : Progress :=
  if p.text.isEmpty then p
  else { p with text := [], written := p.written.write (List.replicate p.text.length ' ' ++ ['\r']) }

end Progress

end SemiThue.Terminal
