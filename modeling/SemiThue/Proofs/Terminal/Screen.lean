/-
What a terminal shows of words and a status below them.

A character takes the cell under the cursor, whatever stood there. So a text drawn at the beginning of a line covers
what the line showed before, as far as the text reaches (`overlay`), and nothing else is ever removed from a line.

The console sink and the line at the bottom write to the same terminal. A word is filled up with blanks to the length
of the status, and this is the status in force, not the longest text that was drawn on the line. What a longer text
left there stays to be seen, behind the word and behind the status (`line_eq_covered`). Words and status are set
apart exactly as long as no text drawn on a line is longer than what covers it last.
-/
import Mathlib.Data.List.Basic
import SemiThue.Terminal.Progress

set_option autoImplicit false

namespace SemiThue.Terminal

/-! ## The screen -/

/-- **The cells of a terminal.** The cursor stands behind some cells of the line under way, and before the others. -/
structure Screen where
  /-- The finished lines, the newest first. -/
  finished : List Text := []
  /-- The cells before the cursor. -/
  passed : Text := []
  /-- The cells from the cursor on. -/
  ahead : Text := []
deriving DecidableEq, Repr

namespace Screen

/-- The cells of the line under way. -/
def line (s : Screen) : Text := s.passed ++ s.ahead

/-- **One character.** A carriage return brings the cursor back to the beginning of the line, a line feed begins a
fresh line, and any other character takes the cell under the cursor. -/
def put (s : Screen) (c : Char) : Screen :=
  if c = '\r' then { s with passed := [], ahead := s.line }
  else if c = '\n' then { finished := s.line :: s.finished }
  else { s with passed := s.passed ++ [c], ahead := s.ahead.drop 1 }

/-- A text, character by character. -/
def display (s : Screen) (t : Text) : Screen := t.foldl put s

theorem display_append (s : Screen) (t u : Text) : s.display (t ++ u) = (s.display t).display u := List.foldl_append

end Screen

/-- The text takes a cell for every character. -/
def Plain (t : Text) : Prop := ∀ c ∈ t, c ≠ '\r' ∧ c ≠ '\n'

instance (t : Text) : Decidable (Plain t) := List.decidableBAll _ t

/-- What a line shows when a text is drawn at its beginning. -/
def overlay (t line : Text) : Text := t ++ line.drop t.length

/-- The line shows the text, and behind it nothing but blanks. -/
def Shows (t line : Text) : Prop := t <+: line ∧ ∀ c ∈ line.drop t.length, c = ' '

instance (t line : Text) : Decidable (Shows t line) :=
  @instDecidableAnd _ _ inferInstance (List.decidableBAll _ _)

namespace Screen

variable {s : Screen} {t : Text}

theorem display_plain (plain : Plain t) (s : Screen) :
    s.display t = { s with passed := s.passed ++ t, ahead := s.ahead.drop t.length } := by
  induction t generalizing s with
  | nil => simp [display]
  | cons c t ih =>
    obtain ⟨no_return, no_feed⟩ := plain c List.mem_cons_self
    have taken : s.put c = { s with passed := s.passed ++ [c], ahead := s.ahead.drop 1 } := by
      rw [put, if_neg no_return, if_neg no_feed]
    rw [display, List.foldl_cons, taken, ← display, ih fun d mem => plain d (List.mem_cons_of_mem c mem)]
    simp only [List.append_assoc, List.singleton_append, List.drop_drop, List.length_cons, Nat.add_comm 1]

/-- A text drawn at the beginning of a line, to which the cursor returns. -/
theorem display_return (plain : Plain t) (home : s.passed = []) :
    s.display (t ++ ['\r']) = { s with ahead := overlay t s.ahead } := by
  rw [display_append, display_plain plain, home]
  simp only [display, List.foldl_cons, List.foldl_nil, put, if_true, line, overlay, List.nil_append]

/-- A text drawn at the beginning of a line, which is then finished. -/
theorem display_feed (plain : Plain t) (home : s.passed = []) :
    s.display (t ++ ['\n']) = { finished := overlay t s.ahead :: s.finished } := by
  rw [display_append, display_plain plain, home]
  rfl

end Screen

/-! ## Texts over one another -/

section Over

variable {t line : Text} {texts : List Text} {n : Nat}

theorem length_overlay (t line : Text) : (overlay t line).length = max t.length line.length := by
  rw [overlay, List.length_append, List.length_drop]
  omega

theorem overlay_of_length_le (short : line.length ≤ t.length) : overlay t line = t := by
  rw [overlay, List.drop_eq_nil_of_le short, List.append_nil]

/-- What texts leave on a line that were drawn over one another, the last one first. -/
def covered (texts : List Text) : Text := texts.foldr overlay []

theorem covered_cons (t : Text) (texts : List Text) : covered (t :: texts) = overlay t (covered texts) := rfl

theorem length_covered_le_iff : (covered texts).length ≤ n ↔ ∀ t ∈ texts, t.length ≤ n := by
  induction texts with
  | nil => simp [covered]
  | cons t texts ih => rw [covered_cons, length_overlay, Nat.max_le, ih, List.forall_mem_cons]

/-- A line ends as one of the texts does that were drawn on it. -/
theorem getLast?_covered_ne {c : Char} (ends : ∀ t ∈ texts, t.getLast? ≠ some c) :
    (covered texts).getLast? ≠ some c := by
  induction texts with
  | nil => nofun
  | cons t texts ih =>
    obtain ⟨this, others⟩ := List.forall_mem_cons.1 ends
    rw [covered_cons]
    by_cases short : (covered texts).length ≤ t.length
    · rwa [overlay_of_length_le short]
    · rw [overlay, List.getLast?_append_of_ne_nil _ ((mt List.drop_eq_nil_iff.1 (by omega))), List.getLast?_drop,
        if_neg short]
      exact ih others

/-- A text with blanks behind it, drawn on a line that is not longer, is all that the line shows. -/
theorem shows_of_length_le (short : line.length ≤ t.length + n) :
    Shows t (overlay (t ++ List.replicate n ' ') line) := by
  rw [overlay_of_length_le (by rwa [List.length_append, List.length_replicate])]
  refine ⟨List.prefix_append _ _, fun c mem => ?_⟩
  rw [List.drop_left] at mem
  exact List.eq_of_mem_replicate mem

/-- What a longer line had beyond them stays to be seen. -/
theorem length_le_of_shows (ends : line.getLast? ≠ some ' ')
    (shows : Shows t (overlay (t ++ List.replicate n ' ') line)) :
    line.length ≤ t.length + n := by
  by_contra long
  have some_left : line.drop (t.length + n) ≠ [] := (mt List.drop_eq_nil_iff.1 (by omega))
  have last : (line.drop (t.length + n)).getLast? = line.getLast? := by rw [List.getLast?_drop, if_neg long]
  obtain ⟨c, found⟩ : ∃ c, line.getLast? = some c := by
    rw [← last]
    exact Option.isSome_iff_exists.1 (List.getLast?_isSome.2 some_left)
  have blank : c = ' ' := by
    refine shows.2 c ?_
    rw [overlay, List.append_assoc, List.drop_left, List.length_append, List.length_replicate]
    exact List.mem_append_right _ (List.mem_of_getLast? (last.trans found))
  rw [blank] at found
  exact ends found

end Over

end SemiThue.Terminal
