/-
Trimming.

A text is trimmed at its front and at its back, and the two have nothing to do with each other as long as
something stays in between. So it makes no difference what blanks stand around a text (`trimWith_append`), and a
text with a mark in it that is not blank is trimmed to its left side without the blanks in front, the mark, and its
right side without the blanks behind (`trimWith_around`). That is what lets a line be trimmed before it is cut at
its arrow: the sides are trimmed again afterwards, and it does not matter which blanks went first. The same holds
of a text that is cut at a character, if its pieces are trimmed (`map_trimWith_cut_trimWith`).
-/
import Mathlib.Data.List.DropRight
import SemiThue.Proofs.Text.Pieces
import SemiThue.Text.Blank
import SemiThue.Text.Letter

set_option autoImplicit false

namespace SemiThue.Text

variable {p : Char → Bool} {t front back : Text} {c : Char}

theorem trimWith_eq (p : Char → Bool) (t : Text) : trimWith p t = (t.dropWhile p).rdropWhile p := rfl

/-! ## One end at a time -/

theorem dropWhile_append_of_blank (blank : ∀ c ∈ front, p c = true) (t : Text) :
    (front ++ t).dropWhile p = t.dropWhile p :=
  List.dropWhile_append_of_pos blank

theorem rdropWhile_append_of_blank (blank : ∀ c ∈ back, p c = true) (t : Text) :
    (t ++ back).rdropWhile p = t.rdropWhile p := by
  rw [List.rdropWhile, List.reverse_append,
    List.dropWhile_append_of_pos fun c mem => blank c (List.mem_reverse.1 mem), ← List.rdropWhile]

/-- The front of a text ends where something stands that is not blank. -/
theorem dropWhile_append_cons (kept : p c = false) (front t : Text) :
    (front ++ c :: t).dropWhile p = front.dropWhile p ++ c :: t := by
  induction front with
  | nil => rw [List.nil_append, List.dropWhile_cons_of_neg (by simp [kept]), List.dropWhile_nil, List.nil_append]
  | cons d front ih =>
    by_cases blank : p d = true
    · rw [List.cons_append, List.dropWhile_cons_of_pos blank, List.dropWhile_cons_of_pos blank, ih]
    · rw [List.cons_append, List.dropWhile_cons_of_neg blank, List.dropWhile_cons_of_neg blank,
        List.cons_append]

/-- So does the back. -/
theorem rdropWhile_append_cons (kept : p c = false) (t back : Text) :
    (t ++ c :: back).rdropWhile p = t ++ c :: back.rdropWhile p := by
  rw [List.rdropWhile, List.reverse_append, List.reverse_cons, List.append_assoc, List.singleton_append,
    dropWhile_append_cons kept, List.reverse_append, List.reverse_cons, List.reverse_reverse,
    List.append_assoc, List.singleton_append, ← List.rdropWhile]

/-! ## Both ends -/

/-- **Blanks around a text are trimmed away.** -/
theorem trimWith_append (front_blank : ∀ c ∈ front, p c = true) (back_blank : ∀ c ∈ back, p c = true)
    (t : Text) : trimWith p (front ++ t ++ back) = trimWith p t := by
  rw [trimWith_eq, List.append_assoc, dropWhile_append_of_blank front_blank]
  by_cases all : ∀ c ∈ t, p c = true
  · -- nothing is left of the text, and nothing of what stands behind it
    rw [dropWhile_append_of_blank all, List.dropWhile_eq_nil_iff.2 back_blank, trimWith_eq,
      List.dropWhile_eq_nil_iff.2 all]
  · have some_left : t.dropWhile p ≠ [] := fun none => all (List.dropWhile_eq_nil_iff.1 none)
    rw [List.dropWhile_append, if_neg (by simpa [List.isEmpty_iff] using some_left),
      rdropWhile_append_of_blank back_blank, trimWith_eq]

/-- **Around a mark that is not blank** only the outer ends are trimmed. -/
theorem trimWith_around {mark : Text} (some_mark : mark ≠ []) (kept : ∀ c ∈ mark, p c = false)
    (before behind : Text) :
    trimWith p (before ++ mark ++ behind) = before.dropWhile p ++ mark ++ behind.rdropWhile p := by
  have front : (before ++ mark ++ behind).dropWhile p = before.dropWhile p ++ mark ++ behind := by
    obtain ⟨c, others, rfl⟩ := List.exists_cons_of_ne_nil some_mark
    rw [List.append_assoc, List.cons_append, dropWhile_append_cons (kept c List.mem_cons_self)]
    simp
  rw [trimWith_eq, front]
  obtain ⟨others, c, rfl⟩ := (List.eq_nil_or_concat mark).resolve_left some_mark
  have split (u v : Text) : u ++ others.concat c ++ v = u ++ others ++ c :: v := by simp
  rw [split, split, rdropWhile_append_cons (kept c (by simp))]

/-- So they are around a single character. -/
theorem trimWith_around_cons (kept : p c = false) (before behind : Text) :
    trimWith p (before ++ c :: behind) = before.dropWhile p ++ c :: behind.rdropWhile p := by
  rw [trimWith_eq, dropWhile_append_cons kept, rdropWhile_append_cons kept]

/-- What is left stands in the text. -/
theorem infix_trimWith (p : Char → Bool) (t : Text) : trimWith p t <:+: t := by
  rw [trimWith_eq]
  exact (List.rdropWhile_prefix p _).isInfix.trans (List.dropWhile_suffix p).isInfix

/-- A text without blanks stays as it is. -/
theorem trimWith_eq_self (kept : ∀ c ∈ t, p c = false) : trimWith p t = t := by
  by_cases nothing : t = []
  · rw [nothing, trimWith_nil]
  · simpa using trimWith_around nothing kept [] []

/-- Blanks taken away in front are not missed. -/
theorem trimWith_dropWhile (p : Char → Bool) (t : Text) : trimWith p (t.dropWhile p) = trimWith p t := by
  rw [trimWith_eq, List.dropWhile_idempotent, trimWith_eq]

/-- Blanks taken away behind are not missed. -/
theorem trimWith_rdropWhile (p : Char → Bool) (t : Text) : trimWith p (t.rdropWhile p) = trimWith p t := by
  have back : ∀ c ∈ t.rtakeWhile p, p c = true := fun _ mem => List.mem_rtakeWhile_imp mem
  calc trimWith p (t.rdropWhile p)
      = trimWith p ([] ++ t.rdropWhile p ++ t.rtakeWhile p) := (trimWith_append (by simp) back _).symm
    _ = trimWith p t := by rw [List.nil_append, List.rdropWhile_append_rtakeWhile]

/-! ## What is left -/

/-- A trimmed text does not begin with a blank. -/
theorem head?_trimWith (first : c ∈ (trimWith p t).head?) : p c = false := by
  obtain ⟨back, split⟩ := List.rdropWhile_prefix p (t.dropWhile p)
  have kept := List.head?_dropWhile_not p t
  rw [← split, List.head?_append, ← trimWith_eq, Option.mem_def.1 first] at kept
  simpa using kept

/-- Nor does it end with one. -/
theorem getLast?_trimWith (last : c ∈ (trimWith p t).getLast?) : p c = false := by
  have kept := List.head?_dropWhile_not p (t.dropWhile p).reverse
  rw [trimWith, List.getLast?_reverse, Option.mem_def] at last
  rw [last] at kept
  simpa using kept

/-! ## Pieces -/

/-- Blanks in front of the first piece are not missed. -/
theorem map_trimWith_cut_dropWhile (kept : p c = false) (t : Text) :
    (cut (t.dropWhile p) [c]).map (trimWith p) = (cut t [c]).map (trimWith p) := by
  have h := inPieces_cut (List.cons_ne_nil c []) t
  generalize cut t [c] = pieces at h
  cases h with
  | whole absent =>
    have absent' : ¬[c] <:+: t.dropWhile p := fun occurs =>
      absent (occurs.trans (List.dropWhile_suffix p).isInfix)
    rw [cut_of_absent absent', List.map_singleton, List.map_singleton, trimWith_dropWhile]
  | @behind piece rest pieces first others =>
    have first' : OnlyBehind [c] (piece.dropWhile p) := by
      rw [onlyBehind_singleton_iff] at first ⊢
      exact fun mem => first ((List.dropWhile_suffix p).subset mem)
    have split : (piece ++ [c] ++ rest).dropWhile p = piece.dropWhile p ++ [c] ++ rest := by
      rw [List.append_assoc, List.singleton_append, dropWhile_append_cons kept, List.append_assoc,
        List.singleton_append]
    rw [split, cut_append (List.cons_ne_nil c []) first', others.cut_eq (List.cons_ne_nil c []), List.map_cons,
      List.map_cons, trimWith_dropWhile]

/-- Blanks behind the last piece are not missed. -/
theorem map_trimWith_cut_rdropWhile (kept : p c = false) (t : Text) :
    (cut (t.rdropWhile p) [c]).map (trimWith p) = (cut t [c]).map (trimWith p) := by
  have h := inPieces_cut (List.cons_ne_nil c []) t
  generalize cut t [c] = pieces at h
  induction h with
  | @whole t absent =>
    have absent' : ¬[c] <:+: t.rdropWhile p := fun occurs =>
      absent (occurs.trans (List.rdropWhile_prefix p t).isInfix)
    rw [cut_of_absent absent', List.map_singleton, List.map_singleton, trimWith_rdropWhile]
  | @behind piece rest pieces first others ih =>
    have split : (piece ++ [c] ++ rest).rdropWhile p = piece ++ [c] ++ rest.rdropWhile p := by
      rw [List.append_assoc, List.singleton_append, rdropWhile_append_cons kept, List.append_assoc,
        List.singleton_append]
    rw [split, cut_append (List.cons_ne_nil c []) first, List.map_cons, List.map_cons, ih]

/-- **Trimmed pieces** are the same whether the text was trimmed or not. -/
theorem map_trimWith_cut_trimWith (kept : p c = false) (t : Text) :
    (cut (trimWith p t) [c]).map (trimWith p) = (cut t [c]).map (trimWith p) := by
  rw [trimWith_eq p t, map_trimWith_cut_rdropWhile kept, map_trimWith_cut_dropWhile kept]

/-! ## Letters -/

/-- The two tables have no code point in common. -/
theorem blankRanges_apart : ∀ b ∈ blankRanges, ∀ l ∈ letterRanges, b.2 < l.1 ∨ l.2 < b.1 := by decide +kernel

/-- **A blank is no letter.** -/
theorem isLetter_of_isBlank (blank : isBlank c = true) : isLetter c = false := by
  by_contra letter
  obtain ⟨b, b_mem, b_least, b_most⟩ := exists_of_inRanges blank
  obtain ⟨l, l_mem, l_least, l_most⟩ := exists_of_inRanges ((Bool.not_eq_false _).mp letter)
  have apart := blankRanges_apart b b_mem l l_mem
  omega

/-- **Trimming takes no letters away.** -/
theorem filter_isLetter_trim (t : Text) : t.trim.filter isLetter = t.filter isLetter := by
  have none_blank {front : Text} (blank : ∀ c ∈ front, isBlank c = true) : front.filter isLetter = [] :=
    List.filter_eq_nil_iff.2 fun c mem letter =>
      Bool.false_ne_true ((isLetter_of_isBlank (blank c mem)).symm.trans letter)
  have front := none_blank fun c (mem : c ∈ t.takeWhile isBlank) => List.mem_takeWhile_imp mem
  have back := none_blank fun c (mem : c ∈ (t.dropWhile isBlank).rtakeWhile isBlank) =>
    List.mem_rtakeWhile_imp mem
  calc t.trim.filter isLetter
      = ((t.dropWhile isBlank).rdropWhile isBlank ++ (t.dropWhile isBlank).rtakeWhile isBlank).filter isLetter := by
        rw [List.filter_append, back, List.append_nil, ← trimWith_eq, trim]
    _ = (t.takeWhile isBlank ++ t.dropWhile isBlank).filter isLetter := by
        rw [List.rdropWhile_append_rtakeWhile, List.filter_append, front, List.nil_append]
    _ = t.filter isLetter := by rw [List.takeWhile_append_dropWhile]

end SemiThue.Text
