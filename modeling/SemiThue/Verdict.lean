/-
Verdicts: what becomes of a text that a rule has just produced.
-/
import SemiThue.Fault

set_option autoImplicit false

namespace SemiThue

/-- What becomes of a rewritten text. -/
inductive Verdict where
  /-- The rule changed nothing. -/
  | unchanged
  /-- The text is of no use: too long, or a word that is too long. -/
  | dropped
  /-- The text is a word of the language. -/
  | word
  /-- The text holds something to rewrite still. -/
  | live
deriving DecidableEq, Repr

namespace Verdict

/-- The verdicts with the names under which they are shown. -/
def names : List (Verdict × String) :=
  [(.unchanged, "noop"), (.dropped, "discard"), (.word, "word"), (.live, "continue")]

/-- The name under which a verdict is shown. -/
def name : Verdict → String
  | .unchanged => "noop"
  | .dropped => "discard"
  | .word => "word"
  | .live => "continue"

/-- The verdict of a given name. -/
def ofName (name : Text) : Except Fault Verdict :=
  match names.find? (fun p => p.2.toList == name) with
  | some (v, _) => .ok v
  | none => .error (.unknownVerdict name)

end Verdict

end SemiThue
