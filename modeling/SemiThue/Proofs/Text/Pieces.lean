/-
The pieces of a text, said without a scan.

`Text.cut` scans a text and passes over what an occurrence has used up. What it finds can be said of the
pieces alone: behind each of them but the last stands the pattern, and piece and pattern together hold the
pattern only there, at their end; the last piece does not hold it at all. Nothing else fits this description.
A pattern that stood earlier would end within the first piece and the pattern behind it, which the description
excludes, so the first piece is settled by the text alone (`cut_append`), and with it, step by step, all the
others. Patterns that overlap with themselves need no care in this.

Where the pattern is a single character, the description says that the pieces do not hold the character, and
that is all there is to splitting a line at bars.
-/
import SemiThue.Proofs.Text.Replace
import Mathlib.Data.List.Infix

set_option autoImplicit false

namespace SemiThue.Text

/-! ## The description -/

/-- **The pattern stands behind the piece, and no earlier**: in both together it occurs at the end only. -/
def OnlyBehind (pattern piece : Text) : Prop :=
  ∀ before behind, piece ++ pattern = before ++ pattern ++ behind → behind = []

/-- **The pieces of a text** between occurrences of a pattern, the first of them from the left, the next one
behind it, and so on until there is none. -/
inductive InPieces (pattern : Text) : Text → List Text → Prop where
  /-- The pattern does not occur. -/
  | whole {text : Text} (absent : ¬pattern <:+: text) : InPieces pattern text [text]
  /-- It occurs behind the first piece. -/
  | behind {piece rest : Text} {pieces : List Text} (first : OnlyBehind pattern piece)
      (others : InPieces pattern rest pieces) :
      InPieces pattern (piece ++ pattern ++ rest) (piece :: pieces)

variable {pattern replacement text piece rest : Text} {pieces : List Text}

theorem onlyBehind_nil (pattern : Text) : OnlyBehind pattern [] := by
  intro before behind split
  have := congrArg List.length split
  simp only [List.nil_append, List.length_append] at this
  exact List.length_eq_zero_iff.1 (by omega)

/-- A pattern that stands behind a piece only does so behind what is left of it. -/
theorem OnlyBehind.of_cons {c : Char} (h : OnlyBehind pattern (c :: piece)) : OnlyBehind pattern piece :=
  fun before behind split => h (c :: before) behind (by simp [split])

/-- It does not stand where the piece begins. -/
theorem OnlyBehind.elsewhere {c : Char} (h : OnlyBehind pattern (c :: piece)) (rest : Text) :
    ¬pattern <+: c :: piece ++ pattern ++ rest := by
  intro starts
  -- it would end before the pattern that stands behind the piece
  have inside : pattern <+: c :: piece ++ pattern :=
    List.prefix_of_prefix_length_le starts (List.prefix_append _ _) (by simp; omega)
  obtain ⟨behind, split⟩ := inside
  have nothing := h [] behind split.symm
  have := congrArg List.length split
  simp only [nothing, List.append_nil, List.length_append, List.length_cons] at this
  omega

/-- Nor does it occur inside the piece. -/
theorem OnlyBehind.absent (some_pattern : pattern ≠ []) (h : OnlyBehind pattern piece) :
    ¬pattern <:+: piece := by
  rintro ⟨before, behind, rfl⟩
  have nothing := h before (behind ++ pattern) (by simp)
  exact some_pattern (List.append_eq_nil_iff.1 nothing).2

/-- **Where the pattern occurs, it occurs somewhere first.** -/
theorem exists_onlyBehind (occurs : pattern <:+: text) :
    ∃ piece rest, text = piece ++ pattern ++ rest ∧ OnlyBehind pattern piece := by
  induction text with
  | nil => exact ⟨[], [], by simpa using List.eq_nil_of_infix_nil occurs, onlyBehind_nil pattern⟩
  | cons c text ih =>
    by_cases starts : pattern <+: c :: text
    · obtain ⟨rest, split⟩ := starts
      exact ⟨[], rest, split.symm, onlyBehind_nil pattern⟩
    · obtain ⟨piece, rest, rfl, only⟩ := ih ((List.infix_cons_iff.1 occurs).resolve_left starts)
      refine ⟨c :: piece, rest, rfl, fun before behind split => ?_⟩
      cases before with
      | nil =>
        -- at the very beginning it does not stand
        refine absurd ⟨behind ++ rest, ?_⟩ starts
        rw [← List.append_assoc, ← List.nil_append pattern, ← split]
        simp
      | cons b before =>
        exact only before behind (List.cons.inj split).2

/-! ## The scan finds the pieces -/

/-- Passing over characters is the same as scanning what comes behind them. -/
theorem cutFrom_eq_cut_drop (pattern : Text) (skip : Nat) (text : Text) :
    cutFrom pattern skip text = cut (text.drop skip) pattern := by
  induction text generalizing skip with
  | nil => cases skip <;> rfl
  | cons c text ih =>
    cases skip with
    | zero => rfl
    | succ skip => rw [cutFrom, ih, List.drop_succ_cons]

theorem cut_cons_of_elsewhere {c : Char} (elsewhere : ¬pattern <+: c :: text) :
    cut (c :: text) pattern = (cut text pattern).modifyHead (c :: ·) := by
  rw [cut, cutFrom, if_neg (by rwa [List.isPrefixOf_iff_prefix]), cut]

theorem cut_of_prefix (some_pattern : pattern ≠ []) (rest : Text) :
    cut (pattern ++ rest) pattern = [] :: cut rest pattern := by
  obtain ⟨c, others, rfl⟩ := List.exists_cons_of_ne_nil some_pattern
  have starts : (c :: others).isPrefixOf (c :: (others ++ rest)) = true :=
    List.isPrefixOf_iff_prefix.2 (List.prefix_append (c :: others) rest)
  rw [List.cons_append, cut, cutFrom, if_pos starts, cutFrom_eq_cut_drop, List.length_cons,
    Nat.add_sub_cancel, List.drop_left]

/-- **The first piece is settled.** -/
theorem cut_append (some_pattern : pattern ≠ []) (only : OnlyBehind pattern piece) (rest : Text) :
    cut (piece ++ pattern ++ rest) pattern = piece :: cut rest pattern := by
  induction piece with
  | nil => exact cut_of_prefix some_pattern rest
  | cons c piece ih =>
    have elsewhere := only.elsewhere rest
    simp only [List.cons_append] at elsewhere ⊢
    rw [cut_cons_of_elsewhere elsewhere, ih only.of_cons, List.modifyHead_cons]

/-- A text that does not hold the pattern is not cut. -/
theorem cut_of_absent (absent : ¬pattern <:+: text) : cut text pattern = [text] := by
  induction text with
  | nil => rfl
  | cons c text ih =>
    rw [List.infix_cons_iff, not_or] at absent
    rw [cut_cons_of_elsewhere absent.1, ih absent.2, List.modifyHead_cons]

/-- **What fits the description is what the scan finds**, so at most one list of pieces fits it. -/
theorem InPieces.cut_eq (some_pattern : pattern ≠ []) (h : InPieces pattern text pieces) :
    cut text pattern = pieces := by
  induction h with
  | whole absent => exact cut_of_absent absent
  | behind first _ ih => rw [cut_append some_pattern first, ih]

/-- **What the scan finds fits the description.** The induction is on the length of the text: behind the
first occurrence less is left. -/
theorem inPieces_cut (some_pattern : pattern ≠ []) (text : Text) :
    InPieces pattern text (cut text pattern) := by
  by_cases occurs : pattern <:+: text
  · obtain ⟨piece, rest, rfl, first⟩ := exists_onlyBehind occurs
    have shorter : rest.length < (piece ++ pattern ++ rest).length := by
      have := List.length_pos_iff.2 some_pattern
      simp only [List.length_append]
      omega
    rw [cut_append some_pattern first]
    exact .behind first (inPieces_cut some_pattern rest)
  · rw [cut_of_absent occurs]
    exact .whole occurs
termination_by text.length

/-- **No piece holds the pattern.** -/
theorem InPieces.absent (some_pattern : pattern ≠ []) (h : InPieces pattern text pieces)
    (mem : piece ∈ pieces) : ¬pattern <:+: piece := by
  induction h with
  | whole absent => exact List.mem_singleton.1 mem ▸ absent
  | behind first _ ih =>
    rcases List.mem_cons.1 mem with rfl | mem
    · exact first.absent some_pattern
    · exact ih mem

/-- **Every piece stands in the text.** -/
theorem InPieces.infix_of_mem (h : InPieces pattern text pieces) (mem : piece ∈ pieces) : piece <:+: text := by
  induction h with
  | whole _ => rw [List.mem_singleton.1 mem]
  | behind first _ ih =>
    rcases List.mem_cons.1 mem with rfl | mem
    · exact ((List.prefix_append _ _).trans (List.prefix_append _ _)).isInfix
    · exact (ih mem).trans (List.suffix_append _ _).isInfix

/-- The pieces with the pattern between them are the text. -/
theorem InPieces.join_eq (some_pattern : pattern ≠ []) (h : InPieces pattern text pieces) :
    join pattern pieces = text := by
  rw [← h.cut_eq some_pattern, join_cut some_pattern]

/-- **There are several pieces** if the pattern occurs, and only then. -/
theorem InPieces.infix_iff (h : InPieces pattern text pieces) : pattern <:+: text ↔ 2 ≤ pieces.length := by
  cases h with
  | whole absent => exact iff_of_false absent (by simp)
  | @behind piece rest pieces first others =>
    have some_piece : pieces ≠ [] := by
      cases others <;> exact List.cons_ne_nil _ _
    have := List.length_pos_iff.2 some_piece
    exact iff_of_true ⟨piece, rest, rfl⟩ (by rw [List.length_cons]; omega)

/-! ## Across a seam -/

/-- What occurs in two texts put together occurs in one of them, or some of it ends the first one and the rest
begins the second one. -/
theorem infix_append_cases {t front back : Text} (occurs : t <:+: front ++ back) :
    t <:+: front ∨ t <:+: back ∨ ∃ u v, u ≠ [] ∧ v ≠ [] ∧ u ++ v = t ∧ u <:+ front ∧ v <+: back := by
  obtain ⟨before, behind, split⟩ := occurs
  rw [List.append_assoc] at split
  rcases List.append_eq_append_iff.1 split with ⟨rest, rfl, rest_eq⟩ | ⟨rest, rfl, rfl⟩
  · -- it begins in the first text, and ends there or behind it
    rcases List.append_eq_append_iff.1 rest_eq with ⟨gap, rfl, rfl⟩ | ⟨v, rfl, rfl⟩
    · exact .inl ⟨before, gap, by simp⟩
    · rcases eq_or_ne rest [] with rfl | some_front
      · exact .inr (.inl ⟨[], behind, rfl⟩)
      · rcases eq_or_ne v [] with rfl | some_back
        · exact .inl ⟨before, [], by simp⟩
        · exact .inr (.inr ⟨rest, v, some_front, some_back, rfl, List.suffix_append _ _,
            List.prefix_append _ _⟩)
  · exact .inr (.inl ⟨rest, behind, by simp⟩)

/-! ## Joinings -/

/-- What holds of the characters of all pieces, and of those between them, holds of all characters. -/
theorem forall_mem_join {p : Char → Prop} {between : Text} (here : ∀ c ∈ between, p c)
    (each : ∀ piece ∈ pieces, ∀ c ∈ piece, p c) : ∀ c ∈ join between pieces, p c := by
  intro c mem
  rcases mem_join mem with mem | ⟨piece, found, mem⟩
  · exact here c mem
  · exact each piece found c mem

/-- What is kept of a joining is what is kept of the pieces, if nothing is kept of the text between them. -/
theorem filter_join {p : Char → Bool} {between : Text} (nothing : between.filter p = []) (pieces : List Text) :
    (join between pieces).filter p = pieces.flatMap fun piece => piece.filter p := by
  induction pieces with
  | nil => rfl
  | cons first others ih =>
    cases others with
    | nil => simp
    | cons second others =>
      rw [join_cons_cons, List.filter_append, List.filter_append, nothing, List.append_nil, ih, ←
        List.flatMap_cons]

/-- Each text between two pieces counts. -/
theorem length_join (between : Text) (some_piece : pieces ≠ []) :
    (join between pieces).length = pieces.flatten.length + (pieces.length - 1) * between.length := by
  induction pieces with
  | nil => exact absurd rfl some_piece
  | cons first others ih =>
    cases others with
    | nil => simp
    | cons second others =>
      rw [join_cons_cons, List.length_append, List.length_append, ih (List.cons_ne_nil _ _),
        List.flatten_cons (l := first), List.length_append]
      simp only [List.length_cons, Nat.add_sub_cancel, Nat.add_mul, Nat.one_mul]
      omega

/-- **What stands between several pieces shows in their joining.** Joinings of one length have texts of one length
between the pieces, and these begin at the same place, behind the first piece. -/
theorem eq_of_join_eq {between between' : Text} (several : 2 ≤ pieces.length)
    (same : join between pieces = join between' pieces) : between = between' := by
  obtain ⟨first, second, others, rfl⟩ : ∃ first second others, pieces = first :: second :: others := by
    match pieces, several with
    | first :: second :: others, _ => exact ⟨first, second, others, rfl⟩
  have equally_long : between.length = between'.length := by
    have lengths := congrArg List.length same
    rw [length_join _ (List.cons_ne_nil _ _), length_join _ (List.cons_ne_nil _ _)] at lengths
    exact Nat.eq_of_mul_eq_mul_left (by simp) (Nat.add_left_cancel lengths)
  rw [join_cons_cons, join_cons_cons, List.append_assoc, List.append_assoc] at same
  exact (List.append_inj (List.append_cancel_left same) equally_long).1

/-! ## Single characters -/

variable {c : Char}

theorem onlyBehind_singleton_iff : OnlyBehind [c] piece ↔ c ∉ piece := by
  constructor
  · intro only mem
    obtain ⟨before, behind, rfl⟩ := List.append_of_mem mem
    have := only before (behind ++ [c]) (by simp)
    simp at this
  · intro absent before behind split
    rcases List.eq_nil_or_concat behind with nothing | ⟨rest, d, rfl⟩
    · exact nothing
    · -- the character stands before the last one, so in the piece
      rw [List.concat_eq_append, ← List.append_assoc] at split
      exact absurd (by simp [(List.append_inj' split rfl).1]) absent

/-- Cutting at a character leaves no such character. -/
theorem not_mem_of_mem_cut (mem : piece ∈ cut text [c]) : c ∉ piece := fun held =>
  (inPieces_cut (List.cons_ne_nil c []) text).absent (List.cons_ne_nil c []) mem
    ((List.singleton_infix_iff _ _).2 held)

/-- **A character that is replaced by something else is gone.** -/
theorem not_mem_replace (absent : c ∉ replacement) (text : Text) : c ∉ text.replace [c] replacement := by
  intro mem
  rw [replace_eq_join_cut] at mem
  rcases mem_join mem with mem | ⟨piece, found, mem⟩
  · exact absent mem
  · exact not_mem_of_mem_cut found mem

/-- **Pieces without a character, joined by it, are cut apart at it.** -/
theorem cut_join_singleton (some_piece : pieces ≠ []) (without : ∀ piece ∈ pieces, c ∉ piece) :
    cut (join [c] pieces) [c] = pieces := by
  induction pieces with
  | nil => exact absurd rfl some_piece
  | cons first others ih =>
    have here := without first List.mem_cons_self
    cases others with
    | nil =>
      rw [join_singleton]
      exact cut_of_absent fun occurs => here ((List.singleton_infix_iff _ _).1 occurs)
    | cons second others =>
      rw [join_cons_cons, cut_append (List.cons_ne_nil c []) (onlyBehind_singleton_iff.2 here),
        ih (List.cons_ne_nil _ _) fun piece mem => without piece (List.mem_cons_of_mem _ mem)]

end SemiThue.Text
