/-
Replacing in a text whose characters were renamed.

The scan for occurrences compares characters and does nothing else with them. So an injective renaming of
the characters moves no occurrence: the text is cut at the same places, the pieces are the renamed pieces,
and what is put together again is the renamed result. Injectivity is needed for the first step only, where
two characters that differ have to differ afterwards.
-/
import SemiThue.Text.Basic
import Mathlib.Data.List.Basic

set_option autoImplicit false

namespace SemiThue.Text

/-- The text with every character renamed. -/
def rename (f : Char → Char) (t : Text) : Text := t.map f

variable {f : Char → Char}

@[simp] theorem rename_nil : rename f [] = [] := rfl

@[simp] theorem rename_cons (c : Char) (t : Text) : rename f (c :: t) = f c :: rename f t := rfl

@[simp] theorem rename_append (s t : Text) : rename f (s ++ t) = rename f s ++ rename f t :=
  List.map_append

@[simp] theorem length_rename (t : Text) : (rename f t).length = t.length := List.length_map f

theorem rename_injective (injective : Function.Injective f) : Function.Injective (rename f) :=
  List.map_injective_iff.2 injective

theorem rename_ne_nil {t : Text} (some_character : t ≠ []) : rename f t ≠ [] :=
  List.map_eq_nil_iff.not.2 some_character

/-- Whether a text begins with another one is not changed. -/
theorem isPrefixOf_rename (injective : Function.Injective f) (s t : Text) :
    (rename f s).isPrefixOf (rename f t) = s.isPrefixOf t := by
  induction s generalizing t with
  | nil => simp
  | cons a s ih =>
    cases t with
    | nil => simp
    | cons b t =>
      have same : (f a == f b) = (a == b) := by
        rw [Bool.eq_iff_iff, beq_iff_eq, beq_iff_eq, injective.eq_iff]
      simp only [rename_cons, List.isPrefixOf_cons_cons, same, ih]

/-- **No occurrence moves**: the pieces of the renamed text are the renamed pieces. -/
theorem cutFrom_rename (injective : Function.Injective f) (pattern : Text) (skip : Nat) (text : Text) :
    cutFrom (rename f pattern) skip (rename f text) = (cutFrom pattern skip text).map (rename f) := by
  induction text generalizing skip with
  | nil => cases skip <;> rfl
  | cons c rest ih =>
    cases skip with
    | succ skip => exact ih skip
    | zero =>
      have occurs : (rename f pattern).isPrefixOf (f c :: rename f rest) =
          pattern.isPrefixOf (c :: rest) := isPrefixOf_rename injective pattern (c :: rest)
      simp only [rename_cons, cutFrom, occurs, length_rename, ih]
      split
      · rfl
      · -- the first piece grows by a character, before or after the renaming
        cases cutFrom pattern 0 rest <;> rfl

theorem join_rename (between : Text) (pieces : List Text) :
    join (rename f between) (pieces.map (rename f)) = rename f (join between pieces) := by
  induction pieces with
  | nil => rfl
  | cons first others ih =>
    cases others with
    | nil => simp
    | cons second others =>
      rw [List.map_cons, List.map_cons, join_cons_cons, join_cons_cons, rename_append, rename_append,
        ← ih, List.map_cons]

/-- **Replacing commutes with renaming.** -/
theorem replace_rename (injective : Function.Injective f) (text pattern replacement : Text) :
    (rename f text).replace (rename f pattern) (rename f replacement) =
      rename f (text.replace pattern replacement) := by
  calc (rename f text).replace (rename f pattern) (rename f replacement)
      = join (rename f replacement) (cut (rename f text) (rename f pattern)) :=
        replace_eq_join_cut _ _ _
    _ = join (rename f replacement) ((cut text pattern).map (rename f)) := by
        rw [cut, cutFrom_rename injective, cut]
    _ = rename f (join replacement (cut text pattern)) := join_rename _ _
    _ = rename f (text.replace pattern replacement) := by rw [replace_eq_join_cut]

end SemiThue.Text
