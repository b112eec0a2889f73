/-
Colours on a terminal, and the few ways in which lines are set off with them.
-/
import SemiThue.Sink.Console

set_option autoImplicit false

namespace SemiThue.Terminal

/-- The sequences that switch the looks of what follows. -/
structure Palette where
  /-- Bold. -/
  bold : String
  /-- Faint. -/
  faint : String
  /-- Red. -/
  red : String
  /-- Green. -/
  green : String
  /-- Yellow. -/
  yellow : String
  /-- Cyan. -/
  cyan : String
  /-- Back to normal. -/
  reset : String
deriving DecidableEq, Repr

namespace Palette

/-- The sequences of terminals with colours. -/
def colored : Palette where
  bold := "\x1b[1m"
  faint := "\x1b[2m"
  red := "\x1b[31m"
  green := "\x1b[32m"
  yellow := "\x1b[33m"
  cyan := "\x1b[36m"
  reset := "\x1b[0m"

/-- No sequences at all. -/
def plain : Palette := ⟨"", "", "", "", "", "", ""⟩

/-- A line across. -/
def bar : String := String.ofList (List.replicate 60 '─')

/-- A heading between two lines across. -/
def header (p : Palette) (text : String) : String :=
  let line := s!"{p.bold}{p.cyan}{bar}{p.reset}"
  s!"\n{line}\n{p.bold}  {text}{p.reset}\n{line}"

/-- Good news. -/
def good (p : Palette) (text : String) : String := s!"  {p.green}✓{p.reset} {text}"

/-- A warning. -/
def warning (p : Palette) (text : String) : String := s!"  {p.yellow}⚠{p.reset} {text}"

/-- Bad news. -/
def bad (p : Palette) (text : String) : String := s!"  {p.red}✗{p.reset} {text}"

/-- The style of what is of less interest. -/
def dimStyle (p : Palette) : Sink.Style := ⟨p.faint.toList, p.reset.toList⟩

/-- Something of less interest. -/
def dim (p : Palette) (text : String) : String := s!"{p.faint}{text}{p.reset}"

end Palette

end SemiThue.Terminal
