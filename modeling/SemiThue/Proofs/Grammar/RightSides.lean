/-
What the right sides of loaded rules look like.

An alternative is trimmed, and then the spellings of the empty text are taken out of it, the one in braces first.
In this order blanks that stood between a spelling and the rest of the alternative stay, and so does a spelling
that comes about only when another one is taken out of its middle. Right sides are in normal form, without blanks
at their ends and without spellings of the empty text, unless an alternative was written in one of these two ways.
What can be wrong otherwise is said end by end: a blank at an end shows that a spelling stood at that end, and the
spelling in braces shows that a spelling stood in the middle of it. The spelling of one character is always gone.
-/
import SemiThue.Proofs.Grammar.Reading
import SemiThue.Proofs.Text.Erasing
import SemiThue.Proofs.Text.Trim

set_option autoImplicit false

namespace SemiThue

namespace Rule

/-- The spelling of the empty text in braces. -/
def bracedMark : Text := "\x7bempty\x7d".toList

variable {t mark : Text} {c : Char}

theorem withoutMarks_eq (t : Text) : withoutMarks t = (t.replace bracedMark []).replace ['ε'] [] := rfl

theorem bracedMark_mem : bracedMark ∈ emptyMarks := List.mem_cons_self

theorem epsilon_mem : ['ε'] ∈ emptyMarks := List.mem_cons_of_mem _ List.mem_cons_self

theorem bracedMark_ne_nil : bracedMark ≠ [] := by decide

/-- **A right side in normal form**: no blank at its ends, and no spelling of the empty text in it. -/
structure Normal (t : Text) : Prop where
  front : ∀ c ∈ t.head?, Text.isBlank c = false
  back : ∀ c ∈ t.getLast?, Text.isBlank c = false
  no_mark : ∀ mark ∈ emptyMarks, ¬mark <:+: t

/-- **A spelling of the empty text stands in the middle of the one in braces**, with some of it on either side.
Of the part behind it no more is said than that there is some. -/
def Nested (t : Text) : Prop :=
  ∃ u v, u ≠ [] ∧ v ≠ [] ∧ u ++ v = bracedMark ∧ ∃ mark ∈ emptyMarks, u ++ mark <:+: t

/-! ## Taking the spellings out -/

/-- The front stays, unless a spelling stood there. -/
theorem head?_withoutMarks (t : Text) :
    (∃ mark ∈ emptyMarks, mark <+: t) ∨ (withoutMarks t).head? = t.head? := by
  rcases Text.prefix_or_head?_eq bracedMark_ne_nil t with stood | same
  · exact .inl ⟨_, bracedMark_mem, stood⟩
  · rcases Text.prefix_or_head?_eq (List.cons_ne_nil 'ε' []) (t.replace bracedMark []) with stood | same'
    · -- it was there before the other spelling was taken out
      refine .inl ⟨_, epsilon_mem, ?_⟩
      rw [List.singleton_prefix_iff_head?_eq_some] at stood ⊢
      rw [← same, stood]
    · exact .inr (by rw [withoutMarks_eq, same', same])

/-- So does the back. -/
theorem getLast?_withoutMarks (t : Text) :
    (∃ mark ∈ emptyMarks, mark <:+ t) ∨ (withoutMarks t).getLast? = t.getLast? := by
  rcases Text.suffix_or_getLast?_eq bracedMark_ne_nil t with stood | same
  · exact .inl ⟨_, bracedMark_mem, stood⟩
  · rcases Text.suffix_or_getLast?_eq (List.cons_ne_nil 'ε' []) (t.replace bracedMark []) with stood | same'
    · refine .inl ⟨_, epsilon_mem, ?_⟩
      rw [List.singleton_suffix_iff_getLast?_eq_some] at stood ⊢
      rw [← same, stood]
    · exact .inr (by rw [withoutMarks_eq, same', same])

/-- The spelling that is taken out last is gone. -/
theorem epsilon_not_mem_withoutMarks (t : Text) : 'ε' ∉ withoutMarks t :=
  Text.not_mem_replace List.not_mem_nil _

/-- **The spelling in braces is gone**, unless it was written around another one. -/
theorem nested_of_infix_withoutMarks (left_over : bracedMark <:+: withoutMarks t) : Nested t := by
  rw [withoutMarks_eq] at left_over
  rcases Text.infix_or_broken (List.cons_ne_nil 'ε' []) left_over with
    before | ⟨u, v, some_front, some_back, split, broken⟩
  · -- it was there before the other spelling was taken out
    obtain ⟨u, v, some_front, some_back, split, broken⟩ := Text.broken_of_infix bracedMark_ne_nil before
    exact ⟨u, v, some_front, some_back, split, _, bracedMark_mem, broken⟩
  · rcases Text.infix_or_broken bracedMark_ne_nil broken with
      stood | ⟨u', v', some_front', some_back', split', broken'⟩
    · exact ⟨u, v, some_front, some_back, split, _, epsilon_mem, stood⟩
    · -- a spelling in braces stood in front of the other one, so some of the beginning is in front of it
      obtain ⟨w, rfl⟩ : u' <+: u := by
        have shorter : u'.length ≤ u.length := by
          have := congrArg List.length split'
          have := List.length_pos_iff.2 some_back'
          simp only [List.length_append, List.length_cons, List.length_nil] at *
          omega
        exact List.prefix_of_prefix_length_le ⟨v', split'⟩ (List.prefix_append u ['ε']) shorter
      refine ⟨u', w ++ v, some_front', List.append_ne_nil_of_right_ne_nil _ some_back, ?_, _, bracedMark_mem,
        broken'⟩
      rw [← split, List.append_assoc]

/-- A text without spellings stays as it is. -/
theorem withoutMarks_of_no_mark (no_mark : ∀ mark ∈ emptyMarks, ¬mark <:+: t) : withoutMarks t = t := by
  rw [withoutMarks_eq, Text.replace_of_absent (no_mark _ bracedMark_mem),
    Text.replace_of_absent (no_mark _ epsilon_mem)]

/-- **An alternative without spellings** is its own right side, and in normal form since it was trimmed. -/
theorem normal_of_no_mark (no_mark : ∀ mark ∈ emptyMarks, ¬mark <:+: t.trim) : Normal t.trim where
  front := fun _ first => Text.head?_trimWith first
  back := fun _ last => Text.getLast?_trimWith last
  no_mark := no_mark

/-- A blank in front shows a spelling in front. -/
theorem mark_prefix_of_blank (first : c ∈ (withoutMarks t.trim).head?) (blank : Text.isBlank c = true) :
    ∃ mark ∈ emptyMarks, mark <+: t.trim := by
  refine (head?_withoutMarks t.trim).resolve_right fun same => ?_
  rw [same] at first
  exact Bool.false_ne_true ((Text.head?_trimWith first).symm.trans blank)

/-- A blank behind shows a spelling behind. -/
theorem mark_suffix_of_blank (last : c ∈ (withoutMarks t.trim).getLast?) (blank : Text.isBlank c = true) :
    ∃ mark ∈ emptyMarks, mark <:+ t.trim := by
  refine (getLast?_withoutMarks t.trim).resolve_right fun same => ?_
  rw [same] at last
  exact Bool.false_ne_true ((Text.getLast?_trimWith last).symm.trans blank)

end Rule

namespace Grammar.Source

variable {r : Rule} {content source origin : Text}

/-- **A rule that a line means** is made of the left side of the line and of an alternative. -/
theorem Line.Means.exists_alternative {added : List Rule} (means : Line.Means content (.rules added))
    (mem : r ∈ added) : ∃ right, Line.Sides content r.left right ∧
      ∃ piece ∈ right.cut ['|'], r.right = Rule.withoutMarks (Text.trim piece) := by
  cases means with
  | rules sides some_left parted each =>
    rw [(Line.forall₂_ofWritten_iff some_left).1 each] at mem
    obtain ⟨piece, found, rfl⟩ := List.mem_map.1 mem
    exact ⟨_, sides, piece, (parted.cut_eq (List.cons_ne_nil _ _)).symm ▸ found, rfl⟩

/-- **Right sides are in normal form but for blanks next to spellings and spellings within spellings.** Every rule
comes from an alternative of a line, trimmed and without the spellings of the empty text. The spelling of one
character is gone. A blank at an end shows a spelling at that end of the alternative, and the spelling in braces
shows one that was written around another. An alternative without spellings is the right side itself, in normal
form. -/
theorem Loaded.right_sides_normal_but_for_marks (source origin : Text) :
    ∀ r ∈ (ofText source origin).grammar.rules, ∃ raw ∈ source.lines, ∃ right,
      Line.Sides (Line.content raw) r.left right ∧ ∃ piece ∈ right.cut ['|'],
        let written := Text.trim piece
        r.right = Rule.withoutMarks written ∧ 'ε' ∉ r.right ∧
          (∀ c ∈ r.right.head?, Text.isBlank c = true → ∃ mark ∈ Rule.emptyMarks, mark <+: written) ∧
          (∀ c ∈ r.right.getLast?, Text.isBlank c = true → ∃ mark ∈ Rule.emptyMarks, mark <:+ written) ∧
          (Rule.bracedMark <:+: r.right → Rule.Nested written) ∧
          ((∀ mark ∈ Rule.emptyMarks, ¬mark <:+: written) → r.right = written ∧ Rule.Normal r.right) := by
  intro r mem
  rw [grammar_ofText, Draft.grammar, List.mem_reverse] at mem
  obtain ⟨raw, line, added, means, added_mem⟩ := exists_means_of_rule mem
  obtain ⟨right, sides, piece, found, right_eq⟩ := means.exists_alternative added_mem
  refine ⟨raw, line, right, sides, piece, found, right_eq, ?_⟩
  rw [right_eq]
  refine ⟨Rule.epsilon_not_mem_withoutMarks _, fun _ => Rule.mark_prefix_of_blank,
    fun _ => Rule.mark_suffix_of_blank, Rule.nested_of_infix_withoutMarks, fun no_mark => ?_⟩
  rw [Rule.withoutMarks_of_no_mark no_mark]
  exact ⟨rfl, Rule.normal_of_no_mark no_mark⟩

/-- The line `S->a {empty}|{em{empty}pty}`: in one alternative a spelling stands at the end, in the other one it
stands in the middle of another. -/
theorem Loaded.right_sides_normal_but_for_marks_nested :
    let source : Text := "S->a \x7bempty\x7d|\x7bem\x7bempty\x7dpty\x7d".toList
    let spaced : Rule := ⟨['S'], ['a', ' '], List.cons_ne_nil _ _⟩
    let braced : Rule := ⟨['S'], Rule.bracedMark, List.cons_ne_nil _ _⟩
    spaced ∈ (ofText source nowhere).grammar.rules ∧ braced ∈ (ofText source nowhere).grammar.rules ∧
      (∃ written, spaced.right = Rule.withoutMarks written ∧ ∃ mark ∈ Rule.emptyMarks, mark <:+ written) ∧
      ∃ written, braced.right = Rule.withoutMarks written ∧ Rule.Nested written := by
  intro source spaced braced
  have rules_eq : (ofText source nowhere).grammar.rules = [spaced, braced] := by
    rw [grammar_ofText]
    decide
  have first : spaced ∈ (ofText source nowhere).grammar.rules := by rw [rules_eq]; simp
  have second : braced ∈ (ofText source nowhere).grammar.rules := by rw [rules_eq]; simp
  obtain ⟨-, -, -, -, piece, -, right_eq, -, -, blank_behind, -⟩ :=
    right_sides_normal_but_for_marks source nowhere spaced first
  obtain ⟨-, -, -, -, piece', -, right_eq', -, -, -, nested, -⟩ :=
    right_sides_normal_but_for_marks source nowhere braced second
  exact ⟨first, second, ⟨_, right_eq, blank_behind ' ' rfl rfl⟩, _, right_eq', nested (List.infix_refl _)⟩

/-- **Right sides need not be in normal form**: a blank stays in front of a spelling that is taken out. -/
theorem Loaded.right_side_not_normal :
    let source : Text := "L={a}\nS -> a {empty}".toList
    ¬∀ r ∈ (ofText source nowhere).grammar.rules, Rule.Normal r.right := by
  intro source normal
  have rules_eq : (ofText source nowhere).grammar.rules = [⟨['S'], ['a', ' '], List.cons_ne_nil _ _⟩] := by
    rw [grammar_ofText]
    decide
  rw [rules_eq] at normal
  have last := (normal _ List.mem_cons_self).back ' ' rfl
  exact absurd last (by decide)

end Grammar.Source

end SemiThue
