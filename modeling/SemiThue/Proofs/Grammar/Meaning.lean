/-
What a line of a grammar file means.

`Line.effect` cuts a line at its arrows, or at its first equals sign, and looks at what comes out. Here it is said
what a line means in terms of what stands in it: one arrow with something in front of it, an equals sign and no
arrow, a bar between two alternatives. A left side may end in a minus or an equals sign, and a right side may begin
with a greater-than sign, so one might fear that an arrow is seen where none was meant. But both arrows end in a
character with which none begins. Arrows therefore never overlap, and what stands in front of the first one is
settled by the text (`cutArrows_append`), however the line goes on.

The main statement is that a line that is not blank means one thing and no other, and that this is its effect
(`means_iff`).
-/
import Mathlib.Data.List.Forall2
import SemiThue.Grammar.Source.Line
import SemiThue.Proofs.Text.Trim

set_option autoImplicit false

namespace SemiThue.Grammar.Source.Line

variable {content before behind arrow left right t : Text} {c : Char}

/-! ## Arrows -/

/-- The arrows. -/
def arrows : List Text := [['-', '>'], ['=', '>']]

/-- An arrow stands in the text. -/
def HoldsArrow (t : Text) : Prop := ∃ arrow ∈ arrows, arrow <:+: t

instance : DecidablePred HoldsArrow := fun t => inferInstanceAs (Decidable (∃ arrow ∈ arrows, arrow <:+: t))

theorem eq_of_mem_arrows (mem : arrow ∈ arrows) : ∃ c, (c = '-' ∨ c = '=') ∧ arrow = [c, '>'] := by
  rcases List.mem_cons.1 mem with rfl | mem
  · exact ⟨'-', .inl rfl, rfl⟩
  · exact ⟨'=', .inr rfl, List.mem_singleton.1 mem⟩

theorem holdsArrow_cons_iff :
    HoldsArrow (c :: t) ↔ (∃ arrow ∈ arrows, arrow <+: c :: t) ∨ HoldsArrow t := by
  simp only [HoldsArrow, List.infix_cons_iff, and_or_left, exists_or]

theorem HoldsArrow.mono (h : HoldsArrow t) {whole : Text} (inside : t <:+: whole) : HoldsArrow whole := by
  obtain ⟨arrow, mem, occurs⟩ := h
  exact ⟨arrow, mem, occurs.trans inside⟩

theorem holdsArrow_append (mem : arrow ∈ arrows) (before behind : Text) :
    HoldsArrow (before ++ arrow ++ behind) :=
  ⟨arrow, mem, before, behind, rfl⟩

/-- **No arrow begins before another one and ends in it.** -/
theorem not_prefix_append (plain : ¬HoldsArrow (c :: before)) (mem : arrow ∈ arrows) (behind : Text) :
    ∀ other ∈ arrows, ¬other <+: c :: before ++ arrow ++ behind := by
  rintro other other_mem ⟨rest, split⟩
  obtain ⟨a, a_kind, rfl⟩ := eq_of_mem_arrows mem
  obtain ⟨b, -, rfl⟩ := eq_of_mem_arrows other_mem
  cases before with
  | nil =>
    -- its second character would be the first one of the arrow
    obtain ⟨-, same, -⟩ : b = c ∧ '>' = a ∧ _ := by simpa using split
    rcases a_kind with rfl | rfl <;> cases same
  | cons d before =>
    obtain ⟨rfl, rfl, -⟩ : b = c ∧ '>' = d ∧ _ := by simpa using split
    exact plain ⟨_, other_mem, (List.prefix_append [b, '>'] before).isInfix⟩

/-- **Where an arrow stands, one stands first.** -/
theorem HoldsArrow.exists_first (h : HoldsArrow t) :
    ∃ before arrow behind, arrow ∈ arrows ∧ t = before ++ arrow ++ behind ∧ ¬HoldsArrow before := by
  have none_in_nil : ¬HoldsArrow [] := by
    rintro ⟨arrow, mem, occurs⟩
    obtain ⟨c, -, rfl⟩ := eq_of_mem_arrows mem
    exact absurd (List.eq_nil_of_infix_nil occurs) (List.cons_ne_nil _ _)
  induction t with
  | nil => exact absurd h none_in_nil
  | cons c t ih =>
    by_cases starts : ∃ arrow ∈ arrows, arrow <+: c :: t
    · obtain ⟨arrow, mem, behind, split⟩ := starts
      exact ⟨[], arrow, behind, mem, split.symm, none_in_nil⟩
    · obtain ⟨before, arrow, behind, mem, rfl, plain⟩ := ih ((holdsArrow_cons_iff.1 h).resolve_left starts)
      refine ⟨c :: before, arrow, behind, mem, rfl, fun held => ?_⟩
      obtain ⟨other, other_mem, starts'⟩ := (holdsArrow_cons_iff.1 held).resolve_right plain
      exact starts ⟨other, other_mem, starts'.trans ⟨arrow ++ behind, by simp⟩⟩

/-- Without a greater-than sign there is no arrow. -/
theorem not_holdsArrow_of_not_mem (absent : '>' ∉ t) : ¬HoldsArrow t := by
  rintro ⟨arrow, mem, occurs⟩
  obtain ⟨c, -, rfl⟩ := eq_of_mem_arrows mem
  exact absent (occurs.subset (by simp))

/-- **Two texts without arrows hold one together** only if a minus or an equals sign ends the first and a
greater-than sign begins the second. -/
theorem not_holdsArrow_append {front back : Text} (front_plain : ¬HoldsArrow front)
    (back_plain : ¬HoldsArrow back)
    (seam : ∀ c ∈ front.getLast?, (c = '-' ∨ c = '=') → back.head? ≠ some '>') : ¬HoldsArrow (front ++ back) := by
  rintro ⟨arrow, mem, occurs⟩
  rcases Text.infix_append_cases occurs with inside | inside | ⟨u, v, some_front, some_back, split, ends, begins⟩
  · exact front_plain ⟨arrow, mem, inside⟩
  · exact back_plain ⟨arrow, mem, inside⟩
  · obtain ⟨c, kind, rfl⟩ := eq_of_mem_arrows mem
    -- one of its two characters is on either side
    obtain ⟨d, u, rfl⟩ := List.exists_cons_of_ne_nil some_front
    obtain ⟨rfl, rest⟩ := List.cons.inj split
    obtain ⟨rfl, rfl⟩ : u = [] ∧ v = ['>'] := by
      rcases List.append_eq_singleton_iff.1 rest with h | ⟨-, no_back⟩
      · exact h
      · exact absurd no_back some_back
    exact seam d (List.singleton_suffix_iff_getLast?_eq_some.1 ends) kind
      (List.singleton_prefix_iff_head?_eq_some.1 begins)

/-! ## Cutting at arrows -/

theorem cutArrows_arrow_append (mem : arrow ∈ arrows) (behind : Text) :
    cutArrows (arrow ++ behind) = [] :: cutArrows behind := by
  obtain ⟨c, rfl | rfl, rfl⟩ := eq_of_mem_arrows mem <;> rfl

theorem cutArrows_cons (elsewhere : ∀ arrow ∈ arrows, ¬arrow <+: c :: t) :
    cutArrows (c :: t) = (cutArrows t).modifyHead (c :: ·) := by
  rw [cutArrows]
  · rintro rest rfl rfl
    exact elsewhere _ List.mem_cons_self ⟨rest, rfl⟩
  · rintro rest rfl rfl
    exact elsewhere _ (List.mem_cons_of_mem _ List.mem_cons_self) ⟨rest, rfl⟩

/-- **What stands in front of the first arrow is the first piece.** -/
theorem cutArrows_append (plain : ¬HoldsArrow before) (mem : arrow ∈ arrows) (behind : Text) :
    cutArrows (before ++ arrow ++ behind) = before :: cutArrows behind := by
  induction before with
  | nil => exact cutArrows_arrow_append mem behind
  | cons c before ih =>
    have elsewhere := not_prefix_append plain mem behind
    simp only [List.cons_append] at elsewhere ⊢
    rw [cutArrows_cons elsewhere, ih fun held => plain (holdsArrow_cons_iff.2 (.inr held)),
      List.modifyHead_cons]

/-- A text without arrows is not cut. -/
theorem cutArrows_of_plain (plain : ¬HoldsArrow t) : cutArrows t = [t] := by
  induction t with
  | nil => rfl
  | cons c t ih =>
    rw [holdsArrow_cons_iff, not_or] at plain
    rw [cutArrows_cons fun arrow mem starts => plain.1 ⟨arrow, mem, starts⟩, ih plain.2, List.modifyHead_cons]

theorem cutArrows_ne_nil (t : Text) : cutArrows t ≠ [] := by
  by_cases held : HoldsArrow t
  · obtain ⟨before, arrow, behind, mem, rfl, plain⟩ := held.exists_first
    rw [cutArrows_append plain mem]
    exact List.cons_ne_nil _ _
  · rw [cutArrows_of_plain held]
    exact List.cons_ne_nil _ _

/-! ## Sides and settings -/

/-- **One arrow stands in the text**, and these are its sides without the blanks around them. -/
inductive Sides : Text → Text → Text → Prop where
  /-- No other arrow stands on either side. -/
  | of_arrow {before arrow behind : Text} (mem : arrow ∈ arrows) (before_plain : ¬HoldsArrow before)
      (behind_plain : ¬HoldsArrow behind) : Sides (before ++ arrow ++ behind) before.trim behind.trim

/-- **An equals sign and no arrow stand in the text**, and these are the name in front of the first one and the
value behind it without the blanks around them. -/
inductive Setting : Text → Text → Text → Prop where
  /-- The value may hold further equals signs. -/
  | of_sign {before behind : Text} (plain : ¬HoldsArrow (before ++ '=' :: behind)) (first : '=' ∉ before) :
      Setting (before ++ '=' :: behind) before.trim behind.trim

theorem before_append_cons (first : c ∉ before) (behind : Text) :
    Text.before (before ++ c :: behind) c = before := by
  rw [Text.before, List.takeWhile_append_of_pos fun d mem => by
    rw [bne_iff_ne]
    rintro rfl
    exact first mem]
  simp

theorem before_of_not_mem (absent : c ∉ t) : Text.before t c = t := by
  refine List.takeWhile_eq_self_iff.2 fun d mem => ?_
  rw [bne_iff_ne]
  rintro rfl
  exact absent mem

theorem after_append_cons (first : c ∉ before) (behind : Text) :
    Text.after (before ++ c :: behind) c = behind := by
  rw [Text.after, List.dropWhile_append_of_pos fun d mem => by
    rw [bne_iff_ne]
    rintro rfl
    exact first mem]
  simp

theorem isEmpty_around (mem : arrow ∈ arrows) (before behind : Text) :
    (before ++ arrow ++ behind).isEmpty = false := by
  obtain ⟨c, -, rfl⟩ := eq_of_mem_arrows mem
  simp

theorem Sides.cutArrows_eq (h : Sides content left right) : ∃ before behind,
    cutArrows content = [before, behind] ∧ left = before.trim ∧ right = behind.trim := by
  obtain ⟨mem, before_plain, behind_plain⟩ := h
  exact ⟨_, _, by rw [cutArrows_append before_plain mem, cutArrows_of_plain behind_plain], rfl, rfl⟩

/-- A text with one arrow has one pair of sides. -/
theorem Sides.unique {left' right' : Text} (h : Sides content left right) (h' : Sides content left' right') :
    left = left' ∧ right = right' := by
  obtain ⟨before, behind, pieces, rfl, rfl⟩ := h.cutArrows_eq
  obtain ⟨before', behind', pieces', rfl, rfl⟩ := h'.cutArrows_eq
  obtain ⟨rfl, rfl⟩ : before = before' ∧ behind = behind' := by simpa using pieces.symm.trans pieces'
  exact ⟨rfl, rfl⟩

theorem Sides.holdsArrow (h : Sides content left right) : HoldsArrow content := by
  obtain ⟨mem, -, -⟩ := h
  exact holdsArrow_append mem _ _

theorem Sides.effect_eq (h : Sides content left right) : effect content = ruleEffect left right := by
  have some_content : content.isEmpty = false := by
    obtain ⟨mem, -, -⟩ := h
    exact isEmpty_around mem _ _
  obtain ⟨before, behind, pieces, rfl, rfl⟩ := h.cutArrows_eq
  rw [effect, some_content, pieces]
  rfl

theorem effect_of_plain (some_content : content ≠ []) (plain : ¬HoldsArrow content) :
    effect content =
      if content.contains '=' then settingEffect (content.before '=').trim (content.after '=').trim
      else .mistake .unreadable := by
  rw [effect, if_neg (by simpa using some_content), cutArrows_of_plain plain]

theorem Setting.effect_eq {name value : Text} (h : Setting content name value) :
    effect content = settingEffect name value := by
  obtain ⟨plain, first⟩ := h
  rw [effect_of_plain (by simp) plain, if_pos (by simp), before_append_cons first, after_append_cons first]

/-- A text with an arrow, but not with exactly one, has several. -/
theorem effect_of_no_sides (held : HoldsArrow content) (none : ∀ left right, ¬Sides content left right) :
    effect content = .mistake .badRule := by
  obtain ⟨before, arrow, behind, mem, rfl, before_plain⟩ := held.exists_first
  have further : HoldsArrow behind := by
    by_contra behind_plain
    exact none _ _ (.of_arrow mem before_plain behind_plain)
  obtain ⟨between, next, rest, next_mem, rfl, between_plain⟩ := further.exists_first
  -- there are three pieces at least
  obtain ⟨last, others, pieces⟩ := List.exists_cons_of_ne_nil (cutArrows_ne_nil rest)
  rw [effect, isEmpty_around mem, cutArrows_append before_plain mem, cutArrows_append between_plain next_mem,
    pieces]
  rfl

/-! ## Trimmed lines -/

/-- An arrow holds no blanks. -/
theorem isBlank_of_mem_arrow (mem : arrow ∈ arrows) : ∀ c ∈ arrow, Text.isBlank c = false := by
  obtain ⟨c, rfl | rfl, rfl⟩ := eq_of_mem_arrows mem <;>
    exact List.forall_mem_cons.2 ⟨by decide, List.forall_mem_singleton.2 (by decide)⟩

/-- **Blanks around a rule** change nothing about its sides. -/
theorem Sides.trim (h : Sides content left right) : Sides (Text.trim content) left right := by
  obtain @⟨before, arrow, behind, mem, before_plain, behind_plain⟩ := h
  have some_arrow : arrow ≠ [] := by
    obtain ⟨c, -, rfl⟩ := eq_of_mem_arrows mem
    exact List.cons_ne_nil _ _
  rw [Text.trim, Text.trimWith_around some_arrow (isBlank_of_mem_arrow mem), Text.trim, Text.trim,
    ← Text.trimWith_dropWhile _ before, ← Text.trimWith_rdropWhile _ behind]
  exact .of_arrow mem (fun held => before_plain (held.mono (List.dropWhile_suffix _).isInfix))
    (fun held => behind_plain (held.mono (List.rdropWhile_prefix _ _).isInfix))

/-- **Blanks around a setting** change nothing about its name and its value. -/
theorem Setting.trim {name value : Text} (h : Setting content name value) :
    Setting (Text.trim content) name value := by
  obtain @⟨before, behind, plain, first⟩ := h
  have still_plain : ¬HoldsArrow (Text.trim (before ++ '=' :: behind)) := fun held =>
    plain (held.mono (Text.infix_trimWith _ _))
  have sign : Text.isBlank '=' = false := by decide
  rw [Text.trim, Text.trimWith_around_cons sign] at still_plain ⊢
  rw [Text.trim, Text.trim, ← Text.trimWith_dropWhile _ before, ← Text.trimWith_rdropWhile _ behind]
  exact .of_sign still_plain fun mem => first ((List.dropWhile_suffix _).subset mem)

/-! ## Meanings -/

/-- **What a line means** that holds something. -/
inductive Means (content : Text) : Effect → Prop where
  /-- Rules: one arrow, and something in front of it. Each alternative behind it gives a rule. -/
  | rules {left right : Text} {alternatives : List Text} {added : List Rule}
      (sides : Sides content left right) (some_left : left ≠ [])
      (parted : Text.InPieces ['|'] right alternatives)
      (each : List.Forall₂ (fun t rule => Rule.ofWritten left (Text.trim t) = .ok rule) alternatives added) :
      Means content (.rules added)
  /-- The bound: a positive number. -/
  | bound {value : Text} {n : Nat} (setting : Setting content ['n'] value)
      (number : value.int? = some (n : Int)) (pos : 0 < n) : Means content (.bound n pos)
  /-- The alphabet: some letters. -/
  | alphabet {value : Text} (setting : Setting content ['L'] value)
      (some_letter : value.filter Text.isLetter ≠ []) :
      Means content (.alphabet ((value.filter Text.isLetter).map ([·])))
  /-- A mistake: several arrows, or nothing in front of the only one. -/
  | badRule (arrow : HoldsArrow content) (bad : ∀ left right, Sides content left right → left = []) :
      Means content (.mistake .badRule)
  /-- A mistake: neither an arrow nor an equals sign. -/
  | unreadable (some_content : content ≠ []) (plain : ¬HoldsArrow content) (no_sign : '=' ∉ content) :
      Means content (.mistake .unreadable)
  /-- A mistake: a bound that is no number. -/
  | boundNotNumber {value : Text} (setting : Setting content ['n'] value) (no_number : value.int? = none) :
      Means content (.mistake .boundNotNumber)
  /-- A mistake: a bound that is not positive. -/
  | boundNotPositive {value : Text} {n : Int} (setting : Setting content ['n'] value)
      (number : value.int? = some n) (not_pos : n ≤ 0) : Means content (.mistake .boundNotPositive)
  /-- A mistake: an alphabet without letters. -/
  | noLetters {value : Text} (setting : Setting content ['L'] value)
      (no_letter : value.filter Text.isLetter = []) : Means content (.mistake .noLetters)
  /-- A mistake: a setting of another name. -/
  | unknownName {name value : Text} (setting : Setting content name value) (not_bound : name ≠ ['n'])
      (not_alphabet : name ≠ ['L']) : Means content (.mistake (.unknownName name))

/-- What stands in a line is settled: one arrow, or several, or an equals sign, or neither. -/
theorem exists_sides_or_setting (content : Text) :
    (∃ left right, Sides content left right) ∨
      (HoldsArrow content ∧ ∀ left right, ¬Sides content left right) ∨
      (∃ name value, Setting content name value) ∨ ¬HoldsArrow content ∧ '=' ∉ content := by
  by_cases sides : ∃ left right, Sides content left right
  · exact .inl sides
  · by_cases held : HoldsArrow content
    · exact .inr (.inl ⟨held, fun left right h => sides ⟨left, right, h⟩⟩)
    · by_cases sign : '=' ∈ content
      · obtain ⟨before, behind, rfl, first⟩ := List.eq_append_cons_of_mem sign
        exact .inr (.inr (.inl ⟨_, _, .of_sign held first⟩))
      · exact .inr (.inr (.inr ⟨held, sign⟩))

/-- Alternatives and the rules that are made of them, in order. None is refused, since there is a left side. -/
theorem forall₂_ofWritten_iff (some_left : left ≠ []) {alternatives : List Text} {added : List Rule} :
    List.Forall₂ (fun t rule => Rule.ofWritten left (Text.trim t) = .ok rule) alternatives added ↔
      added = alternatives.map fun t => ⟨left, Rule.withoutMarks t.trim, some_left⟩ := by
  have made (t : Text) : Rule.ofWritten left t.trim = .ok ⟨left, Rule.withoutMarks t.trim, some_left⟩ :=
    Rule.make_eq_ok_iff.2 ⟨rfl, rfl⟩
  simp only [made, Except.ok.injEq]
  rw [eq_comm (a := added), ← List.forall₂_eq_eq_eq, List.forall₂_map_left_iff]

/-- A setting of the bound: no number, a number that is not positive, or a bound. -/
theorem Setting.means_boundEffect {value : Text} (setting : Setting content ['n'] value) :
    Means content (boundEffect value) := by
  unfold boundEffect
  split
  · rename_i no_number
    exact .boundNotNumber setting no_number
  · rename_i n number
    split
    · rename_i not_pos
      exact .boundNotPositive setting number not_pos
    · rename_i pos
      exact .bound setting (by rw [number, Int.toNat_of_nonneg (by omega)]) _

theorem Setting.means_alphabetEffect {value : Text} (setting : Setting content ['L'] value) :
    Means content (alphabetEffect value) := by
  simp only [alphabetEffect]
  split
  · rename_i no_letter
    exact .noLetters setting (List.isEmpty_iff.1 no_letter)
  · rename_i some_letter
    exact .alphabet setting fun none => some_letter (List.isEmpty_iff.2 none)

/-- The effect of a line that holds something is a meaning of it. -/
theorem means_effect (some_content : content ≠ []) : Means content (effect content) := by
  rcases exists_sides_or_setting content with
    ⟨left, right, sides⟩ | ⟨held, none⟩ | ⟨name, value, setting⟩ | ⟨plain, no_sign⟩
  · rw [sides.effect_eq, ruleEffect]
    split
    · rename_i no_left
      refine .badRule sides.holdsArrow fun left' right' sides' => ?_
      rw [← (sides.unique sides').1, no_left]
    · rename_i some_left
      refine .rules sides some_left (Text.inPieces_cut (List.cons_ne_nil _ _) right) ?_
      rw [forall₂_ofWritten_iff some_left, alternatives, List.map_map]
      rfl
  · rw [effect_of_no_sides held none]
    exact .badRule held fun left right sides => absurd sides (none left right)
  · rw [setting.effect_eq, settingEffect]
    split
    · rename_i bound
      exact (bound ▸ setting).means_boundEffect
    · split
      · rename_i alphabet
        exact (alphabet ▸ setting).means_alphabetEffect
      · rename_i not_bound not_alphabet
        exact .unknownName setting not_bound not_alphabet
  · rw [effect_of_plain some_content plain, if_neg (by simpa using no_sign)]
    exact .unreadable some_content plain no_sign

theorem HoldsArrow.ne_nil (h : HoldsArrow content) : content ≠ [] := by
  obtain ⟨before, arrow, behind, mem, rfl, -⟩ := h.exists_first
  simpa using isEmpty_around mem before behind

theorem Setting.ne_nil {name value : Text} (h : Setting content name value) : content ≠ [] := by
  obtain ⟨-, -⟩ := h
  exact List.append_ne_nil_of_right_ne_nil _ (List.cons_ne_nil _ _)

/-- A line means something only if it holds something. -/
theorem Means.ne_nil {e : Effect} (means : Means content e) : content ≠ [] := by
  cases means with
  | rules sides => exact sides.holdsArrow.ne_nil
  | badRule held => exact held.ne_nil
  | unreadable some_content => exact some_content
  | bound setting | alphabet setting | boundNotNumber setting | boundNotPositive setting | noLetters setting
  | unknownName setting => exact setting.ne_nil

/-- A line that means rules means one at least. -/
theorem Means.added_ne_nil {added : List Rule} (means : Means content (.rules added)) : added ≠ [] := by
  cases means with
  | rules sides some_left parted each =>
    cases parted <;> cases each <;> exact List.cons_ne_nil _ _

/-- A line that holds something means nothing but its effect. -/
theorem Means.effect_eq {e : Effect} (means : Means content e) : effect content = e := by
  cases means with
  | rules sides some_left parted each =>
    rw [sides.effect_eq, ruleEffect, dif_neg some_left, (forall₂_ofWritten_iff some_left).1 each, alternatives,
      parted.cut_eq (List.cons_ne_nil _ _), List.map_map]
    rfl
  | bound setting number pos =>
    have not_neg : ¬((_ : Nat) : Int) ≤ 0 := Int.not_le.2 (Int.natCast_pos.2 pos)
    simp only [setting.effect_eq, settingEffect, if_pos, boundEffect, number, not_neg, dif_neg,
      not_false_eq_true, Int.toNat_natCast]
  | alphabet setting some_letter =>
    simp [setting.effect_eq, settingEffect, alphabetEffect, some_letter]
  | badRule held bad =>
    by_cases sides : ∃ left right, Sides content left right
    · obtain ⟨left, right, sides⟩ := sides
      rw [sides.effect_eq, ruleEffect, dif_pos (bad left right sides)]
    · exact effect_of_no_sides held fun left right h => sides ⟨left, right, h⟩
  | unreadable some_content plain no_sign =>
    rw [effect_of_plain some_content plain, if_neg (by simpa using no_sign)]
  | boundNotNumber setting no_number =>
    rw [setting.effect_eq, settingEffect, if_pos rfl, boundEffect, no_number]
  | boundNotPositive setting number not_pos =>
    simp only [setting.effect_eq, settingEffect, if_pos, boundEffect, number, not_pos, dif_pos]
  | noLetters setting no_letter =>
    simp [setting.effect_eq, settingEffect, alphabetEffect, no_letter]
  | unknownName setting not_bound not_alphabet =>
    rw [setting.effect_eq, settingEffect, if_neg not_bound, if_neg not_alphabet]

/-- **A line that holds something means one thing and no other**, and that is its effect. -/
theorem means_iff {e : Effect} : Means content e ↔ content ≠ [] ∧ effect content = e :=
  ⟨fun means => ⟨means.ne_nil, means.effect_eq⟩, fun ⟨some_content, same⟩ => same ▸ means_effect some_content⟩

end SemiThue.Grammar.Source.Line
