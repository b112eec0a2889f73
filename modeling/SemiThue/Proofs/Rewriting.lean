/-
What one application of a rule does.

A text has exactly one list of pieces between the occurrences of the left side, and applying the rule puts the
right side between them. How much longer the text gets follows from the number of places alone. What a rule
brings in may hold the left side again, also across the seams, and is not rewritten in the same step. Only
where the left side is a single character, and the right side does not hold it, nothing is left to do.

An exploration never asks whether a rule matched. It compares the result with the text, and takes equal ones for
a rule that found nothing. Several replacements at a time could be feared to make up for each other, as where the
right side is the left one shifted and the text repeats itself. They never do (`rewrite_eq_self_iff`): the place
behind the first piece shows what was put there.
-/
import SemiThue.Grammar.Basic
import SemiThue.Proofs.Text.Pieces

set_option autoImplicit false

namespace SemiThue.Rule

variable {r : Rule} {text : Text} {pieces : List Text}

theorem rewrite_eq_join (h : Text.InPieces r.left text pieces) : r.rewrite text = Text.join r.right pieces := by
  rw [rewrite, Text.replace_eq_join_cut, h.cut_eq r.left_ne_nil]

/-- A text that does not hold the left side stays as it is. -/
theorem rewrite_of_absent (absent : ¬r.left <:+: text) : r.rewrite text = text := by
  by_contra changed
  exact absent (Text.infix_of_replace_ne r.left_ne_nil changed)

/-- **What one application of a rule does.** There is one and only one list of pieces of the text between
occurrences of the left side. With the left side between them the pieces are the text, and with the right side
between them they are the result; so the length changes by the difference of the sides, once for each place
between two pieces. A rule for a single character that its right side does not hold leaves nothing to be done
by the same rule. -/
theorem rewrite_joins_the_only_pieces (r : Rule) (text : Text) :
    ∃ pieces, Text.InPieces r.left text pieces ∧
      (∀ others, Text.InPieces r.left text others → others = pieces) ∧
      text = Text.join r.left pieces ∧ r.rewrite text = Text.join r.right pieces ∧
      ((r.rewrite text).length : Int) =
        text.length + (pieces.length - 1 : Int) * (r.right.length - r.left.length) ∧
      ∀ c, r.left = [c] → c ∉ r.right →
        ¬r.left <:+: r.rewrite text ∧ r.rewrite (r.rewrite text) = r.rewrite text := by
  have found := Text.inPieces_cut r.left_ne_nil text
  have some_piece := Text.cut_ne_nil text r.left
  generalize text.cut r.left = pieces at found some_piece
  have whole := found.join_eq r.left_ne_nil
  have result := rewrite_eq_join found
  refine ⟨pieces, found, fun others h => ?_, whole.symm, result, ?_, fun c single absent => ?_⟩
  · rw [← h.cut_eq r.left_ne_nil, found.cut_eq r.left_ne_nil]
  · -- both joinings have the length of the pieces and of what is between them
    have places : ((pieces.length - 1 : Nat) : Int) = pieces.length - 1 := by
      have := List.length_pos_iff.2 some_piece
      omega
    conv_rhs => rw [← whole]
    rw [result, Text.length_join _ some_piece, Text.length_join _ some_piece]
    push_cast [places]
    rw [Int.mul_sub]
    omega
  · have gone : ¬r.left <:+: r.rewrite text := by
      rw [rewrite, single, List.singleton_infix_iff]
      exact Text.not_mem_replace absent text
    exact ⟨gone, rewrite_of_absent gone⟩

/-- The left side `SS` overlaps with itself: in `SSSaS` it has one place, and the third `S` stays. The rule for
`S` alone has four, and none is left. -/
theorem rewrite_joins_the_only_pieces_overlapping :
    let pair : Rule := ⟨['S', 'S'], ['S'], List.cons_ne_nil _ _⟩
    let single : Rule := ⟨['S'], ['a', 'b'], List.cons_ne_nil _ _⟩
    let text : Text := ['S', 'S', 'S', 'a', 'S']
    Text.InPieces pair.left text [[], ['S', 'a', 'S']] ∧ pair.rewrite text = ['S', 'S', 'a', 'S'] ∧
      ((pair.rewrite text).length : Int) = 5 + (2 - 1) * (1 - 2) ∧
      single.left = ['S'] ∧ 'S' ∉ single.right ∧
      single.rewrite (single.rewrite text) = ['a', 'b', 'a', 'b', 'a', 'b', 'a', 'a', 'b'] := by
  intro pair single text
  obtain ⟨pieces, found, -, -, result, length, -⟩ := rewrite_joins_the_only_pieces pair text
  have pieces_eq : pieces = [[], ['S', 'a', 'S']] := by
    rw [← found.cut_eq pair.left_ne_nil]
    rfl
  have absent : 'S' ∉ single.right := by decide
  obtain ⟨-, -, -, -, -, -, settled⟩ := rewrite_joins_the_only_pieces single text
  refine ⟨pieces_eq ▸ found, by rw [result, pieces_eq]; rfl, ?_, rfl, absent, ?_⟩
  · rw [length, pieces_eq]
    rfl
  · rw [(settled 'S' rfl absent).2]
    rfl

/-! ## Nothing changes -/

/-- **A rule leaves a text as it is** where its left side does not occur, or if it has twice the same side. -/
theorem rewrite_eq_self_iff : r.rewrite text = text ↔ ¬r.left <:+: text ∨ r.left = r.right := by
  have found := Text.inPieces_cut r.left_ne_nil text
  constructor
  · intro same
    rw [or_iff_not_imp_left, not_not]
    intro occurs
    refine Text.eq_of_join_eq (found.infix_iff.1 occurs) ?_
    rw [found.join_eq r.left_ne_nil, ← rewrite_eq_join found, same]
  · rintro (absent | sides)
    · exact rewrite_of_absent absent
    · rw [rewrite_eq_join found, ← sides, found.join_eq r.left_ne_nil]

/-- **What is judged unchanged was not matched.** Applying a rule leaves exactly those texts as they are that do
not hold the left side, unless the two sides are the same. So if they differ, the result is judged unchanged
exactly where the left side does not occur, whatever the grammar and the margin; and it is judged otherwise
wherever the right side was put between two pieces or more, however many these are and however long the right
side is. -/
theorem unchanged_iff_absent (r : Rule) (text : Text) :
    (r.rewrite text = text ↔ ¬r.left <:+: text ∨ r.left = r.right) ∧
      (r.left ≠ r.right → ∀ (g : Grammar) (margin : Int),
        (g.judge margin text (r.rewrite text) = .unchanged ↔ ¬r.left <:+: text) ∧
          ∀ pieces, Text.InPieces r.left text pieces → 2 ≤ pieces.length →
            g.judge margin text (Text.join r.right pieces) ≠ .unchanged) := by
  refine ⟨rewrite_eq_self_iff, fun differ g margin => ?_⟩
  have judged : g.judge margin text (r.rewrite text) = .unchanged ↔ ¬r.left <:+: text := by
    rw [Grammar.judge_eq_unchanged_iff, rewrite_eq_self_iff, or_iff_left differ]
  refine ⟨judged, fun pieces found several unchanged => ?_⟩
  rw [← rewrite_eq_join found] at unchanged
  exact judged.1 unchanged (found.infix_iff.2 several)

/-- The rule that turns `ab` around makes `baba` of `abab`, which is the same text shifted by one, and it does not
find anything in `ba`. -/
theorem unchanged_iff_absent_shifted :
    let swap : Rule := ⟨['a', 'b'], ['b', 'a'], List.cons_ne_nil _ _⟩
    let g : Grammar := { bound := 4, terminals := [['a'], ['b']], rules := [swap], bound_pos := by decide }
    let text : Text := ['a', 'b', 'a', 'b']
    swap.left ≠ swap.right ∧ Text.InPieces swap.left text [[], [], []] ∧
      g.judge 0 text ['b', 'a', 'b', 'a'] ≠ .unchanged ∧
      g.judge 0 ['b', 'a'] (swap.rewrite ['b', 'a']) = .unchanged := by
  intro swap g text
  have differ : swap.left ≠ swap.right := by decide
  have found : Text.InPieces swap.left text [[], [], []] := Text.inPieces_cut swap.left_ne_nil text
  obtain ⟨-, judged⟩ := unchanged_iff_absent swap text
  obtain ⟨-, judged'⟩ := unchanged_iff_absent swap ['b', 'a']
  exact ⟨differ, found, (judged differ g 0).2 _ found (by decide), (judged' differ g 0).1.2 (by decide)⟩

end SemiThue.Rule
