/-
What is kept of the last run where derivations are kept.

That is the graph of the run. Only a run from something that is no text has none: no rule can be
applied to its start, so nothing can be derived, and the start itself is all there is to keep. It
counts as a text still to be rewritten, if it can be kept in a set.
-/
import SemiThue.Derivation.Basic
import SemiThue.Foreign

set_option autoImplicit false

namespace SemiThue.Derivation

/-- What is kept of a run. -/
inductive Recording where
  /-- The graph of a run from a text. -/
  | graph (g : Graph)
  /-- The start of a run from something else. -/
  | stray (start : Foreign)
deriving DecidableEq, Repr

namespace Recording

/-- Nothing was recorded yet. -/
def empty : Recording := .graph .empty

/-- How many nodes a start makes that is no text. -/
def strayNodes (start : Foreign) : Nat := if start.keyable then 1 else 0

/-- The recording in numbers. -/
def summary : Recording → String
  | .graph g => g.summary
  | .stray start =>
    s!"Derivation graph from {start.shown}: {strayNodes start} intermediates, 0 words, 0 edges (0 no-ops, 0 discarded)"

/-- The recording as it is shown to programmers. -/
def describe : Recording → String
  | .graph g => g.describe
  | .stray start => s!"<DerivationGraph: {strayNodes start} nodes, 0 edges>"

/-- A shortest derivation of a text. -/
def derivation (r : Recording) (target : Text) : Except Fault (List Step) :=
  match r with
  | .graph g => g.derivation target
  | .stray start => .error (.neverDerived target start.shown.toList)

end Recording

end SemiThue.Derivation
