/-
Taking a pattern out of a text.

Replacing a pattern by nothing puts characters next to each other that were apart before. What that can bring about
is said here: an end of the text changes only if the pattern stood at that end, and something occurs afterwards that
did not occur in a piece before only if the pattern stood in the middle of it. So taking the pattern out may well
bring about the pattern itself, where it was written into itself; but a pattern of one character is gone for good
(`not_mem_replace`).
-/
import SemiThue.Proofs.Text.Pieces

set_option autoImplicit false

namespace SemiThue.Text

variable {pattern replacement text piece rest : Text} {pieces : List Text}

/-! ## Piece by piece -/

theorem replace_of_absent (absent : ¬pattern <:+: text) (replacement : Text) :
    text.replace pattern replacement = text := by
  rw [replace_eq_join_cut, cut_of_absent absent, join_singleton]

theorem replace_append (some_pattern : pattern ≠ []) (only : OnlyBehind pattern piece) (rest replacement : Text) :
    (piece ++ pattern ++ rest).replace pattern replacement =
      piece ++ replacement ++ rest.replace pattern replacement := by
  rw [replace_eq_join_cut, replace_eq_join_cut, cut_append some_pattern only]
  obtain ⟨second, others, pieces⟩ := List.exists_cons_of_ne_nil (cut_ne_nil rest pattern)
  rw [pieces, join_cons_cons]

/-! ## The ends -/

/-- **The front changes only if the pattern stood there.** -/
theorem prefix_or_head?_eq (some_pattern : pattern ≠ []) (text : Text) :
    pattern <+: text ∨ (text.replace pattern []).head? = text.head? := by
  have h := inPieces_cut some_pattern text
  generalize cut text pattern = pieces at h
  cases h with
  | whole absent => exact .inr (by rw [replace_of_absent absent])
  | @behind piece rest pieces first _ =>
    rw [replace_append some_pattern first]
    cases piece with
    | nil => exact .inl ⟨rest, rfl⟩
    | cons c piece => exact .inr rfl

/-- **The back changes only if the pattern stood there.** What is behind the last occurrence stays; if nothing is,
the pattern stood at the end. -/
theorem suffix_or_getLast?_eq (some_pattern : pattern ≠ []) (text : Text) :
    pattern <:+ text ∨ (text.replace pattern []).getLast? = text.getLast? := by
  have h := inPieces_cut some_pattern text
  generalize cut text pattern = pieces at h
  induction h with
  | whole absent => exact .inr (by rw [replace_of_absent absent])
  | @behind piece rest pieces first _ ih =>
    rw [replace_append some_pattern first, List.append_nil]
    rcases ih with stood | same
    · exact .inl (stood.trans (List.suffix_append _ _))
    · rcases List.eq_nil_or_concat rest with rfl | ⟨others, c, rfl⟩
      · exact .inl (by simp)
      · rw [List.concat_eq_append, List.getLast?_concat] at same
        rw [List.concat_eq_append, List.getLast?_append, same]
        simp

/-! ## What is brought about -/

/-- **What occurs afterwards occurred before**, in a piece, or the pattern stood in the middle of it. -/
theorem infix_piece_or_broken (some_pattern : pattern ≠ []) {t : Text}
    (occurs : t <:+: text.replace pattern []) :
    (∃ piece ∈ cut text pattern, t <:+: piece) ∨
      ∃ u v, u ≠ [] ∧ v ≠ [] ∧ u ++ v = t ∧ u ++ pattern <:+: text := by
  have h := inPieces_cut some_pattern text
  generalize cut text pattern = pieces at h ⊢
  induction h with
  | whole absent =>
    rw [replace_of_absent absent] at occurs
    exact .inl ⟨_, List.mem_cons_self, occurs⟩
  | @behind piece rest pieces first _ ih =>
    rw [replace_append some_pattern first, List.append_nil] at occurs
    rcases infix_append_cases occurs with inside | inside | ⟨u, v, some_front, some_back, rfl, ends, -⟩
    · exact .inl ⟨piece, List.mem_cons_self, inside⟩
    · rcases ih inside with ⟨other, mem, inside⟩ | ⟨u, v, some_front, some_back, rfl, broken⟩
      · exact .inl ⟨other, List.mem_cons_of_mem _ mem, inside⟩
      · exact .inr ⟨u, v, some_front, some_back, rfl, broken.trans (List.suffix_append _ _).isInfix⟩
    · obtain ⟨before, rfl⟩ := ends
      exact .inr ⟨u, v, some_front, some_back, rfl, before, rest, by simp⟩

/-- What occurs afterwards occurred in the text, or the pattern stood in the middle of it. -/
theorem infix_or_broken (some_pattern : pattern ≠ []) {t : Text} (occurs : t <:+: text.replace pattern []) :
    t <:+: text ∨ ∃ u v, u ≠ [] ∧ v ≠ [] ∧ u ++ v = t ∧ u ++ pattern <:+: text := by
  refine (infix_piece_or_broken some_pattern occurs).imp_left fun ⟨piece, mem, inside⟩ => ?_
  exact inside.trans ((inPieces_cut some_pattern text).infix_of_mem mem)

/-- **The pattern itself occurs afterwards** only if it stood in the middle of itself. -/
theorem broken_of_infix (some_pattern : pattern ≠ []) (occurs : pattern <:+: text.replace pattern []) :
    ∃ u v, u ≠ [] ∧ v ≠ [] ∧ u ++ v = pattern ∧ u ++ pattern <:+: text := by
  refine (infix_piece_or_broken some_pattern occurs).resolve_left fun ⟨piece, mem, inside⟩ => ?_
  exact (inPieces_cut some_pattern text).absent some_pattern mem inside

end SemiThue.Text
