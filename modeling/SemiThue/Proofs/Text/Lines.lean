/-
Lines, and texts written one a line and read back.

Texts without line ends are the lines of what is written with line ends between them, of whatever kind these are
(`lines_join`); only an empty text at the end is no line. A letter is no line end of any kind. So if texts are made
of letters, it makes no difference whether what was written is cut at line feeds or into lines: both give the
texts, and cutting leaves an empty piece behind the last line feed.

Two things can be done to any text before it is cut into lines, and its lines do not show them. It may be taken
apart behind a line feed (`lines_append`), and its line ends may be made alike (`lines_unifyLineEnds`).
-/
import SemiThue.Proofs.Text.Pieces
import SemiThue.Text.Letter
import SemiThue.Text.Lines

set_option autoImplicit false

namespace SemiThue.Text

/-- Texts written one a line. -/
def listing (texts : List Text) : Text := texts.flatMap fun t => t ++ ['\n']

@[simp] theorem listing_nil : listing [] = [] := rfl

theorem listing_cons (t : Text) (texts : List Text) :
    listing (t :: texts) = t ++ '\n' :: listing texts := by simp [listing]

theorem listing_append_singleton (texts : List Text) (t : Text) :
    listing (texts ++ [t]) = listing texts ++ (t ++ ['\n']) := by simp [listing]

/-! ## Letters are no line ends -/

theorem not_inRanges_of_lineEnd :
    ∀ n ∈ [0xA, 0xB, 0xC, 0xD, 0x1C, 0x1D, 0x1E, 0x85, 0x2028, 0x2029],
      inRanges n letterRanges = false := by decide +kernel

/-- **A letter ends no line.** -/
theorem isLineEnd_of_isLetter {c : Char} (letter : isLetter c = true) : isLineEnd c = false := by
  cases ends : isLineEnd c with
  | false => rfl
  | true =>
    have found := not_inRanges_of_lineEnd c.toNat (List.contains_iff_mem.1 ends)
    rw [isLetter, found] at letter
    cases letter

/-! ## Reading lines back -/

section Lines

variable {t : Text} (unbroken : ∀ c ∈ t, isLineEnd c = false) (rest : Text)

/-- A character that is not the first half of a line end. -/
theorem lines_cons {c : Char} (apart : c = '\r' → rest.head? ≠ some '\n') : lines (c :: rest) =
    if isLineEnd c then [] :: lines rest else prependToFirst c (lines rest) := by
  rw [lines]
  rintro rest rfl rfl
  exact absurd rfl (apart rfl)

theorem lines_cons_of_not_lineEnd {c : Char} (inner : isLineEnd c = false) :
    lines (c :: rest) = prependToFirst c (lines rest) := by
  have no_return : c ≠ '\r' := by
    rintro rfl
    exact absurd inner (by decide)
  rw [lines_cons rest fun h => absurd h no_return, inner]
  rfl

/-- A line end of any kind: one character, or a carriage return and a line feed. -/
def EndsLine (ending : Text) : Prop :=
  ending = ['\r', '\n'] ∨ ∃ c, isLineEnd c = true ∧ ending = [c]

theorem lines_endsLine_append {ending : Text} (ends : EndsLine ending)
    (apart : ending = ['\r'] → rest.head? ≠ some '\n') : lines (ending ++ rest) = [] :: lines rest := by
  rcases ends with rfl | ⟨c, ends, rfl⟩
  · rfl
  · rw [List.singleton_append, lines_cons rest fun h => apart (by rw [h]), if_pos ends]

include unbroken in
/-- **A text with a line end behind it is the first line.** A carriage return must not have a line feed behind it,
with which it would be one line end. -/
theorem lines_append_append {ending : Text} (ends : EndsLine ending)
    (apart : ending = ['\r'] → rest.head? ≠ some '\n') : lines (t ++ ending ++ rest) = t :: lines rest := by
  induction t with
  | nil => exact lines_endsLine_append rest ends apart
  | cons c t ih =>
    rw [List.cons_append, List.cons_append, lines_cons_of_not_lineEnd _ (unbroken c List.mem_cons_self),
      ih fun d mem => unbroken d (List.mem_cons_of_mem c mem)]
    rfl

include unbroken in
/-- A text without line ends is one line, if it is not empty. -/
theorem lines_of_unbroken (some_char : t ≠ []) : lines t = [t] := by
  induction t with
  | nil => exact absurd rfl some_char
  | cons c t ih =>
    rw [lines_cons_of_not_lineEnd _ (unbroken c List.mem_cons_self)]
    cases t with
    | nil => rfl
    | cons d t =>
      rw [ih (fun e mem => unbroken e (List.mem_cons_of_mem c mem)) (List.cons_ne_nil _ _)]
      rfl

include unbroken in
/-- A text with a line feed behind it is the first line. -/
theorem lines_append_lineFeed : lines (t ++ '\n' :: rest) = t :: lines rest := by
  have feed : EndsLine ['\n'] := .inr ⟨'\n', rfl, rfl⟩
  rw [← lines_append_append unbroken rest feed (by simp), List.append_assoc]
  rfl

include unbroken in
/-- A text with a line feed behind it is the first piece. -/
theorem cut_append_lineFeed : (t ++ '\n' :: rest).cut ['\n'] = t :: cut rest ['\n'] := by
  have no_feed : '\n' ∉ t := fun mem => absurd (unbroken '\n' mem) (by decide)
  rw [← cut_append (List.cons_ne_nil _ _) (onlyBehind_singleton_iff.2 no_feed), List.append_assoc,
    List.singleton_append]

end Lines

/-! ## Cutting a text behind a line feed -/

section Append

variable {c : Char} {front rest : Text}

theorem lines_ne_nil (some_char : rest ≠ []) : lines rest ≠ [] := by
  fun_cases lines rest with
  | case1 => exact absurd rfl some_char
  | case2 => exact List.cons_ne_nil _ _
  | case3 => exact List.cons_ne_nil _ _
  | case4 => unfold prependToFirst; split <;> exact List.cons_ne_nil _ _

/-- What is put in front of the first line stays there when further lines follow. -/
theorem prependToFirst_append {some_lines : List Text} (some_line : some_lines ≠ []) (others : List Text) :
    prependToFirst c (some_lines ++ others) = prependToFirst c some_lines ++ others := by
  obtain ⟨first, some_lines, rfl⟩ := List.exists_cons_of_ne_nil some_line
  rfl

/-- **A text is cut into lines as its parts are**, if the first part ends in a line feed. Whatever stands in front
of the line feed, what follows begins a line; only a carriage return at the end of the first part could become one
line end with what follows. -/
theorem lines_append (feed : ['\n'] <:+ front) (back : Text) :
    lines (front ++ back) = lines front ++ lines back := by
  rw [List.singleton_suffix_iff_getLast?_eq_some] at feed
  -- a line end that does not go on with the next character does not go on with what follows
  have apart {c d : Char} {rest : Text} (single : ∀ r, c = '\r' → d :: rest = '\n' :: r → False) :
      c = '\r' → (d :: rest ++ back).head? ≠ some '\n' := by
    rintro rfl same
    exact single rest rfl (by rw [← Option.some.inj same])
  fun_induction lines front with
  | case1 => cases feed
  | case2 rest ih =>
    rw [List.getLast?_cons_cons] at feed
    cases rest with
    | nil => rfl
    | cons d rest =>
      rw [List.getLast?_cons_cons] at feed
      exact congrArg ([] :: ·) (ih feed)
  | case3 c rest single ends ih =>
    cases rest with
    | nil =>
      obtain rfl : c = '\n' := Option.some.inj feed
      rfl
    | cons d rest =>
      rw [List.getLast?_cons_cons] at feed
      rw [List.cons_append, lines_cons _ (apart single), if_pos ends, ih feed, List.cons_append]
  | case4 c rest single inner ih =>
    cases rest with
    | nil =>
      obtain rfl : c = '\n' := Option.some.inj feed
      exact absurd rfl inner
    | cons d rest =>
      rw [List.getLast?_cons_cons] at feed
      rw [List.cons_append, lines_cons _ (apart single), if_neg inner, ih feed,
        prependToFirst_append (lines_ne_nil (List.cons_ne_nil d rest))]

/-- **Making all line ends alike leaves the lines as they were.** A carriage return alone and a line feed alone both
end a line, and a pair ends one before as it does after. -/
theorem lines_unifyLineEnds (t : Text) : lines (unifyLineEnds t) = lines t := by
  fun_induction unifyLineEnds t with
  | case1 => rfl
  | case2 rest ih => exact congrArg ([] :: ·) ih
  | case3 c rest single ih =>
    have apart : c = '\r' → rest.head? ≠ some '\n' := by
      rintro rfl same
      obtain ⟨rest, rfl⟩ := List.head?_eq_some_iff.1 same
      exact single rest rfl rfl
    by_cases alone : c = '\r'
    · rw [if_pos alone, lines_cons rest apart, alone]
      exact congrArg ([] :: ·) ih
    · rw [if_neg alone, lines_cons _ fun h => absurd h alone, lines_cons rest apart, ih]

end Append

variable {texts : List Text} (unbroken : ∀ t ∈ texts, ∀ c ∈ t, isLineEnd c = false)

include unbroken

/-- **Texts written one a line are the lines of what was written.** -/
theorem lines_listing : lines (listing texts) = texts := by
  induction texts with
  | nil => rfl
  | cons t texts ih =>
    rw [listing_cons, lines_append_lineFeed (unbroken t List.mem_cons_self),
      ih fun s mem => unbroken s (List.mem_cons_of_mem t mem)]

/-- **Texts with a line end between them are the lines of what was written**, but for an empty one at the end. -/
theorem lines_join {ending : Text} (ends : EndsLine ending) :
    lines (join ending texts) = texts ∨ lines (join ending texts) ++ [[]] = texts := by
  induction texts with
  | nil => exact .inl rfl
  | cons t texts ih =>
    have here := unbroken t List.mem_cons_self
    cases texts with
    | nil =>
      rw [join_singleton]
      by_cases some_char : t = []
      · exact .inr (by rw [some_char]; rfl)
      · exact .inl (lines_of_unbroken here some_char)
    | cons s texts =>
      -- an empty text lets the next line end follow at once, which is the same one
      have apart : ending = ['\r'] → (join ending (s :: texts)).head? ≠ some '\n' := by
        rintro rfl feed
        have first : s.head? ≠ some '\n' := fun found =>
          absurd (unbroken s (by simp) '\n' (List.mem_of_head? found)) (by decide)
        cases texts with
        | nil => exact first (by simpa using feed)
        | cons u texts =>
          rw [join_cons_cons] at feed
          cases s with
          | nil => cases feed
          | cons c s => exact first feed
      rw [join_cons_cons, lines_append_append here _ ends apart, List.cons_append, List.cons_inj_right,
        List.cons_inj_right]
      exact ih fun s mem => unbroken s (List.mem_cons_of_mem t mem)

/-- **Texts written one a line are the pieces between line feeds**, and an empty piece is left. -/
theorem cut_listing : (listing texts).cut ['\n'] = texts ++ [[]] := by
  induction texts with
  | nil => rfl
  | cons t texts ih =>
    rw [listing_cons, cut_append_lineFeed (unbroken t List.mem_cons_self),
      ih fun s mem => unbroken s (List.mem_cons_of_mem t mem), List.cons_append]

end SemiThue.Text
