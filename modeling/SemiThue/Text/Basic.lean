/-
Texts, their order, and the occurrences of one text in another.

A text is a list of characters, one entry a code point: lengths, comparisons and positions all count
code points, and nothing is normalised. Lists rather than strings because everything this library has
to say about texts is said by induction on them.

The one operation with content is `Text.cut`: it cuts a text at the occurrences of a pattern, scanning
from the left and never looking again at characters that an occurrence has used up. Rewriting a text
by a rule, splitting a grammar line at a comment or at its alternatives, and removing a marker are all
`cut` followed by putting the pieces together again. The scan is structural on the text: after an
occurrence it counts down the characters still to be passed over, so no measure is needed and closed
instances evaluate.
-/

set_option autoImplicit false

namespace SemiThue

/-- A text: a sequence of code points. -/
abbrev Text := List Char

namespace Text

/-- The text as a string, for output. -/
def toString (t : Text) : String := String.ofList t

/-! ## Order

Lists of texts are shown sorted by code points: the first difference decides, and a text comes before
its own extensions. -/

/-- `s.atMost t` holds when `s` equals `t` or comes before it. -/
def atMost : Text → Text → Bool
  | [], _ => true
  | _ :: _, [] => false
  | a :: s, b :: t => a.toNat < b.toNat || (a == b && atMost s t)

/-- The texts of a list from first to last; equal texts all stay. -/
def sort (texts : List Text) : List Text := texts.mergeSort atMost

/-- The texts of a sorted list, each once. -/
def withoutRepeats : List Text → List Text
  | s :: t :: texts => if s == t then withoutRepeats (t :: texts) else s :: withoutRepeats (t :: texts)
  | texts => texts

@[simp] theorem atMost_nil (t : Text) : atMost [] t = true := by cases t <;> rfl

@[simp] theorem atMost_cons (a b : Char) (s t : Text) :
    atMost (a :: s) (b :: t) = (a.toNat < b.toNat || (a == b && atMost s t)) := rfl

/-- Sorting only reorders. -/
theorem sort_perm (texts : List Text) : (sort texts).Perm texts := List.mergeSort_perm _ _

/-- No text gets lost with the repeats. -/
@[simp] theorem mem_withoutRepeats {texts : List Text} {t : Text} :
    t ∈ withoutRepeats texts ↔ t ∈ texts := by
  fun_induction withoutRepeats texts with
  | case1 r s texts h ih =>
    rw [ih, beq_iff_eq.1 h]
    simp
  | case2 r s texts h ih => simp [ih]
  | case3 => rfl

/-! ## Occurrences -/

/-- Cuts a text whose first `skip` characters belong to an occurrence already found. -/
def cutFrom (pattern : Text) : Nat → Text → List Text
  | _, [] => [[]]
  | skip + 1, _ :: rest => cutFrom pattern skip rest
  | 0, c :: rest =>
    if pattern.isPrefixOf (c :: rest) then [] :: cutFrom pattern (pattern.length - 1) rest
    else (cutFrom pattern 0 rest).modifyHead (c :: ·)

/-- **The pieces between the occurrences** of a nonempty pattern, leftmost first and without overlap.
There is one piece more than there are occurrences. -/
def cut (text pattern : Text) : List Text := cutFrom pattern 0 text

theorem cutFrom_ne_nil (pattern : Text) (skip : Nat) (text : Text) :
    cutFrom pattern skip text ≠ [] := by
  induction text generalizing skip with
  | nil => simp [cutFrom]
  | cons c rest ih =>
    cases skip with
    | succ skip => simpa [cutFrom] using ih skip
    | zero =>
      simp only [cutFrom]
      split
      · simp
      · -- prepending to the first piece keeps the number of pieces
        have := ih 0
        cases h : cutFrom pattern 0 rest with
        | nil => exact absurd h this
        | cons piece pieces => simp

/-- Cutting always yields a piece, the whole text if the pattern does not occur. -/
theorem cut_ne_nil (text pattern : Text) : cut text pattern ≠ [] := cutFrom_ne_nil pattern 0 text

/-- Every character of a piece is a character of the text. -/
theorem mem_of_mem_cutFrom {pattern : Text} {skip : Nat} {text piece : Text} {c : Char}
    (hp : piece ∈ cutFrom pattern skip text) (hc : c ∈ piece) : c ∈ text := by
  induction text generalizing skip piece with
  | nil =>
    simp only [cutFrom, List.mem_singleton] at hp
    simp [hp] at hc
  | cons d rest ih =>
    cases skip with
    | succ skip => exact List.mem_cons_of_mem _ (ih hp hc)
    | zero =>
      simp only [cutFrom] at hp
      split at hp
      · rcases List.mem_cons.1 hp with rfl | hp
        · simp at hc
        · exact List.mem_cons_of_mem _ (ih hp hc)
      · cases h : cutFrom pattern 0 rest with
        | nil => simp [h] at hp
        | cons first others =>
          rw [h, List.modifyHead_cons] at hp
          rcases List.mem_cons.1 hp with rfl | hp
          · rcases List.mem_cons.1 hc with rfl | hc
            · exact List.mem_cons_self
            · exact List.mem_cons_of_mem _ (ih (h ▸ List.mem_cons_self) hc)
          · exact List.mem_cons_of_mem _ (ih (h ▸ List.mem_cons_of_mem _ hp) hc)

/-- Puts a text between the pieces. -/
def join (between : Text) (pieces : List Text) : Text := between.intercalate pieces

@[simp] theorem join_singleton (between piece : Text) : join between [piece] = piece := by
  simp [join, List.intercalate]

@[simp] theorem join_cons_cons (between first second : Text) (others : List Text) :
    join between (first :: second :: others) = first ++ between ++ join between (second :: others) := by
  simp [join, List.intercalate]

/-- What comes before the first piece comes before everything. -/
theorem join_modifyHead_cons (between : Text) (c : Char) {pieces : List Text} (h : pieces ≠ []) :
    join between (pieces.modifyHead (c :: ·)) = c :: join between pieces := by
  match pieces, h with
  | [piece], _ => simp
  | piece :: second :: others, _ => simp

theorem mem_join {between : Text} {pieces : List Text} {c : Char} (h : c ∈ join between pieces) :
    c ∈ between ∨ ∃ piece ∈ pieces, c ∈ piece := by
  induction pieces with
  | nil => simp [join, List.intercalate] at h
  | cons first others ih =>
    cases others with
    | nil => exact .inr ⟨first, List.mem_cons_self, by simpa using h⟩
    | cons second others =>
      rw [join_cons_cons, List.mem_append, List.mem_append] at h
      rcases h with (h | h) | h
      · exact .inr ⟨first, List.mem_cons_self, h⟩
      · exact .inl h
      · rcases ih h with h | ⟨piece, hp, hc⟩
        · exact .inl h
        · exact .inr ⟨piece, List.mem_cons_of_mem _ hp, hc⟩

/-- Puts a text with replaced occurrences behind what was put together before, of which the last
character comes first. The first `skip` characters of the text belong to an occurrence already found. -/
def replaceOnto (pattern replacement : Text) : Nat → Text → Text → Text
  | _, [], done => done.reverse
  | skip + 1, _ :: rest, done => replaceOnto pattern replacement skip rest done
  | 0, c :: rest, done =>
    if pattern.isPrefixOf (c :: rest) then
      replaceOnto pattern replacement (pattern.length - 1) rest (replacement.reverseAux done)
    else replaceOnto pattern replacement 0 rest (c :: done)

/-- Replaces every occurrence that `cut` finds; the replacement is not scanned again. -/
def replace (text pattern replacement : Text) : Text := replaceOnto pattern replacement 0 text []

theorem replaceOnto_eq (pattern replacement : Text) (skip : Nat) (text done : Text) :
    replaceOnto pattern replacement skip text done =
      done.reverse ++ join replacement (cutFrom pattern skip text) := by
  induction text generalizing skip done with
  | nil => cases skip <;> simp [replaceOnto, cutFrom]
  | cons c rest ih =>
    cases skip with
    | succ skip => simp only [replaceOnto, cutFrom, ih]
    | zero =>
      simp only [replaceOnto, cutFrom]
      split
      · obtain ⟨piece, pieces, h⟩ :=
          List.exists_cons_of_ne_nil (cutFrom_ne_nil pattern (pattern.length - 1) rest)
        rw [ih, h, join_cons_cons, List.reverseAux_eq]
        simp
      · rw [ih, join_modifyHead_cons _ _ (cutFrom_ne_nil pattern 0 rest)]
        simp

/-- **Replacing is joining again what was cut.** -/
theorem replace_eq_join_cut (text pattern replacement : Text) :
    replace text pattern replacement = join replacement (cut text pattern) := by
  simp [replace, replaceOnto_eq, cut]

/-- **No character comes from nowhere.** Each character after a replacement stood in the text or in
the replacement. This is what bounds an exploration: it never leaves a finite alphabet. -/
theorem mem_replace {text pattern replacement : Text} {c : Char}
    (h : c ∈ replace text pattern replacement) : c ∈ replacement ∨ c ∈ text := by
  rw [replace_eq_join_cut] at h
  rcases mem_join h with h | ⟨piece, hp, hc⟩
  · exact .inl h
  · exact .inr (mem_of_mem_cutFrom hp hc)

/-- The part of a text before the first of the given characters. -/
def before (text : Text) (mark : Char) : Text := text.takeWhile (· != mark)

/-- The part of a text after the first of the given characters, empty if there is none. -/
def after (text : Text) (mark : Char) : Text := (text.dropWhile (· != mark)).drop 1

end Text

end SemiThue
