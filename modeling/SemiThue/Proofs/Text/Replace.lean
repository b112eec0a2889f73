/-
What replacing does to a text.

A text is cut at the occurrences of a pattern and joined again with something else. Nothing gets lost in
the cutting: the same pieces joined with the pattern are the text (`join_cut`). So a text and what replacing
makes of it are two joinings of the same pieces, and to compare them is to go through the pieces. Two
comparisons are made here. The longer of two texts between the pieces makes the longer result, and where
nothing was cut replacing changes nothing, so that a change shows an occurrence of the pattern.
-/
import SemiThue.Text.Basic

set_option autoImplicit false

namespace SemiThue.Text

variable {pattern replacement text : Text}

/-! ## Cutting and joining -/

/-- What was cut comes together again, without the characters that were passed over. -/
theorem join_cutFrom (some_pattern : pattern ≠ []) (skip : Nat) (text : Text) :
    join pattern (cutFrom pattern skip text) = text.drop skip := by
  induction text generalizing skip with
  | nil => cases skip <;> simp [cutFrom]
  | cons c rest ih =>
    cases skip with
    | succ skip => rw [cutFrom, ih, List.drop_succ_cons]
    | zero =>
      simp only [cutFrom]
      split
      · rename_i occurs
        obtain ⟨behind, split⟩ := List.isPrefixOf_iff_prefix.1 occurs
        have length_pos := List.length_pos_iff.2 some_pattern
        -- the rest of the occurrence is passed over, and what is behind it stays
        have rest_drop : rest.drop (pattern.length - 1) = behind := by
          have := congrArg (List.drop pattern.length) split
          rw [List.drop_left, ← Nat.sub_add_cancel length_pos, List.drop_succ_cons] at this
          exact this.symm
        obtain ⟨piece, pieces, cut⟩ :=
          List.exists_cons_of_ne_nil (cutFrom_ne_nil pattern (pattern.length - 1) rest)
        rw [cut, join_cons_cons, ← cut, ih, rest_drop, List.nil_append, split, List.drop_zero]
      · rw [join_modifyHead_cons _ _ (cutFrom_ne_nil pattern 0 rest), ih, List.drop_zero,
          List.drop_zero]

/-- **Nothing gets lost in the cutting.** -/
theorem join_cut (some_pattern : pattern ≠ []) (text : Text) : join pattern (cut text pattern) = text :=
  join_cutFrom some_pattern 0 text

/-! ## Two joinings of the same pieces -/

/-- The longer text between the pieces makes the longer joining. -/
theorem length_join_le {between between' : Text} (longer : between.length ≤ between'.length)
    (pieces : List Text) : (join between pieces).length ≤ (join between' pieces).length := by
  induction pieces with
  | nil => simp [join, List.intercalate]
  | cons first others ih =>
    cases others with
    | nil => simp
    | cons second others =>
      rw [join_cons_cons, join_cons_cons]
      simp only [List.length_append]
      omega

/-- **A replacement that is not shorter than the pattern makes no text shorter.** -/
theorem length_le_replace (some_pattern : pattern ≠ []) (longer : pattern.length ≤ replacement.length)
    (text : Text) : text.length ≤ (text.replace pattern replacement).length := by
  calc text.length = (join pattern (cut text pattern)).length := by rw [join_cut some_pattern]
    _ ≤ (join replacement (cut text pattern)).length := length_join_le longer _
    _ = (text.replace pattern replacement).length := by rw [replace_eq_join_cut]

/-- **What replacing changes holds the pattern.** -/
theorem infix_of_replace_ne (some_pattern : pattern ≠ [])
    (changed : text.replace pattern replacement ≠ text) : pattern <:+: text := by
  have whole := join_cut some_pattern text
  rw [replace_eq_join_cut] at changed
  obtain ⟨piece, pieces, pieces_eq⟩ := List.exists_cons_of_ne_nil (cut_ne_nil text pattern)
  rw [pieces_eq] at whole changed
  cases pieces with
  | nil =>
    -- one piece is the text, whatever stands between the pieces
    rw [join_singleton] at whole changed
    exact absurd whole changed
  | cons second others =>
    rw [join_cons_cons] at whole
    exact ⟨piece, _, whole⟩

end SemiThue.Text
