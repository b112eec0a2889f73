/-
Rewrite rules.

A rule turns every occurrence of its left side into its right side, all at once: the text is cut at
the occurrences of the left side, found from the left and without overlap, and the pieces are joined
again with the right side between them. What the replacement brings in is not rewritten in the same
step. The left side is never empty, and the type says so; the right side is empty in a rule that
erases.
-/
import SemiThue.Fault

set_option autoImplicit false

namespace SemiThue

/-- A substitution of one text for another. -/
structure Rule where
  /-- The text that is replaced. -/
  left : Text
  /-- The text that replaces it. -/
  right : Text
  /-- There is something to replace. -/
  left_ne_nil : left ≠ []
deriving DecidableEq, Repr

namespace Rule

/-- The rule with the given sides, unless the left one is empty. -/
def make (left right : Text) : Except Fault Rule :=
  if h : left = [] then .error .emptyLeftSide else .ok ⟨left, right, h⟩

/-- The spellings of the empty text on the right of a rule, in the order in which they are removed. -/
def emptyMarks : List Text := ["\x7bempty\x7d".toList, ['ε']]

/-- A right side as written, without the spellings of the empty text. -/
def withoutMarks (right : Text) : Text := emptyMarks.foldl (fun t mark => t.replace mark []) right

/-- The rule with the given left side and a right side as written. -/
def ofWritten (left right : Text) : Except Fault Rule := make left (withoutMarks right)

/-- The rule erases what it finds. -/
def isErasing (r : Rule) : Bool := r.right.isEmpty

/-- **The text after one application**: every occurrence of the left side replaced. -/
def rewrite (r : Rule) (text : Text) : Text := text.replace r.left r.right

/-- The right side as it is shown, the empty one by a mark of its own. -/
def shownRight (r : Rule) : String := if r.right.isEmpty then "<empty>" else r.right.toString

/-- The rule as it is shown to people. -/
def display (r : Rule) : String := s!"{r.left.toString} -> {r.shownRight}"

/-- The rule as it is shown to programmers. -/
def describe (r : Rule) : String := s!"<Rule {r.display}>"

/-- A rule brings in no characters but those of its right side. -/
theorem mem_rewrite {r : Rule} {text : Text} {c : Char} (h : c ∈ r.rewrite text) :
    c ∈ r.right ∨ c ∈ text := Text.mem_replace h

theorem make_eq_ok_iff {left right : Text} {r : Rule} :
    make left right = .ok r ↔ r.left = left ∧ r.right = right := by
  obtain ⟨l, t, h⟩ := r
  unfold make
  constructor
  · intro e
    split at e
    · simp at e
    · cases e; exact ⟨rfl, rfl⟩
  · rintro ⟨rfl, rfl⟩
    simp only [h, ↓reduceDIte]

end Rule

end SemiThue
