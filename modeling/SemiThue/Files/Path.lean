/-
Paths in normal form.

A path is absolute or relative, and names the steps to its place one by one. Repeated and trailing
slashes and steps to the same place leave no trace. Steps to the parent stay, since what they undo may
be no directory. Exactly two leading slashes are kept apart from one.
-/
import SemiThue.Text.Basic

set_option autoImplicit false

namespace SemiThue.Files

/-- A path. -/
structure Path where
  /-- The number of leading slashes: none in a relative path, and never more than two. -/
  slashes : Nat
  /-- The steps. -/
  steps : List Text
deriving DecidableEq, Repr

namespace Path

/-- The step to the parent. -/
def parent : Text := "..".toList

/-- The leading slashes that are kept of a number of them. -/
def keptSlashes (n : Nat) : Nat := if n ≤ 2 then n else 1

/-- The path that a text names. -/
def ofText (t : Text) : Path where
  slashes := keptSlashes (t.takeWhile (· == '/')).length
  steps := (t.cut ['/']).filter fun step => step != [] && step != ['.']

/-- The path as a text. -/
def toText (p : Path) : Text :=
  if p.slashes = 0 ∧ p.steps = [] then ['.']
  else List.replicate p.slashes '/' ++ Text.join ['/'] p.steps

/-- The path as a string. -/
def toString (p : Path) : String := p.toText.toString

end Path

end SemiThue.Files
