/-
Derivations read off a graph.

A derivation of a text is a shortest chain of recorded steps from the root to it. It can be asked for
before there is a root, for a text that was never recorded, and, in a graph put together by hand or
looked at while it is being recorded, for a text to which no steps lead; each of these is a fault of its
own.
-/
import SemiThue.Derivation.Graph
import SemiThue.Derivation.Path

set_option autoImplicit false

namespace SemiThue.Derivation.Graph

/-- **A shortest derivation** of a text from the root. -/
def derivation (g : Graph) (target : Text) : Except Fault (List Step) :=
  match g.root with
  | none => .error .nothingRecorded
  | some root =>
    if g.hasNode target then
      match path? g.leaving g.arriving root target with
      | some steps => .ok steps
      | none => .error (.noPath root target)
    else .error (.neverDerived target root)

/-- A derivation written in one row. -/
def chain (target : Text) : List Step → String
  | [] => target.toString
  | first :: others =>
    " => ".intercalate
      (first.source.toString :: first.output.toString :: others.map fun s => s.output.toString)

/-- A shortest derivation of a text, in one row. -/
def formatDerivation (g : Graph) (target : Text) : Except Fault String :=
  (g.derivation target).map (chain target)

end SemiThue.Derivation.Graph
