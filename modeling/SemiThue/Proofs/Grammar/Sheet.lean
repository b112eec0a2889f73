/-
How a grammar file may be written.

A sheet is a grammar file with its layout: rows, each of them a rule or several with the same left side, a setting,
or nothing, blanks around everything in a row, comments behind, and the spelling of every empty alternative. Its
text is what stands in the file, and every row has an effect that is meant.

Sides of rules may hold almost anything, equals signs, minus signs and blanks among it. What they must not hold is
what would be read as something else: line ends, comments and arrows, and on the right also bars and spellings of
the empty text. With so much granted, a row is read as what it is meant as, however it is laid out
(`WrittenLine.effect_content`). Nothing is misread at the seams because an arrow has one character on either side of
each seam, and neither a blank nor a bar is one of the two.
-/
import SemiThue.Proofs.Grammar.Letters
import SemiThue.Proofs.Grammar.RightSides
import SemiThue.Proofs.Text.Lines
import SemiThue.Proofs.Text.Numeral

set_option autoImplicit false

namespace SemiThue.Grammar.Source

open Line (HoldsArrow arrows)

/-! ## What can be written -/

/-- The character can stand in a line in front of its comment. -/
def Inner (c : Char) : Prop := c ≠ '#' ∧ Text.isLineEnd c = false

instance : DecidablePred Inner := fun _ => inferInstanceAs (Decidable (_ ∧ _))

theorem forall_inner_iff {t : Text} : t.all Inner ↔ ∀ c ∈ t, Inner c := by
  simp only [List.all_eq_true, decide_eq_true_eq]

/-- **A text that can be a side of a rule** in a file: trimmed, without line ends, comments and arrows. -/
structure WritableSide (t : Text) : Prop where
  trimmed : t.trim = t
  inner : ∀ c ∈ t, Inner c
  plain : ¬HoldsArrow t

/-- **A text that can be a right side** has no bars and no spellings of the empty text in it either. -/
structure WritableRight (t : Text) : Prop extends WritableSide t where
  no_bar : '|' ∉ t
  no_mark : ∀ mark ∈ Rule.emptyMarks, ¬mark <:+: t

/-- A rule that can be written. -/
structure WritableRule (r : Rule) : Prop where
  left : WritableSide r.left
  right : WritableRight r.right

instance (t : Text) : Decidable (WritableSide t) :=
  decidable_of_iff (t.trim = t ∧ t.all Inner ∧ ¬HoldsArrow t)
    ⟨fun ⟨trimmed, inner, plain⟩ => ⟨trimmed, forall_inner_iff.1 inner, plain⟩,
      fun h => ⟨h.trimmed, forall_inner_iff.2 h.inner, h.plain⟩⟩

instance (t : Text) : Decidable (WritableRight t) :=
  decidable_of_iff (WritableSide t ∧ '|' ∉ t ∧ ∀ mark ∈ Rule.emptyMarks, ¬mark <:+: t)
    ⟨fun ⟨side, no_bar, no_mark⟩ => ⟨side, no_bar, no_mark⟩, fun h => ⟨h.toWritableSide, h.no_bar, h.no_mark⟩⟩

instance (r : Rule) : Decidable (WritableRule r) :=
  decidable_of_iff (WritableSide r.left ∧ WritableRight r.right)
    ⟨fun ⟨left, right⟩ => ⟨left, right⟩, fun h => ⟨h.left, h.right⟩⟩

/-- **An effect that can be written**: the rules can, the bound has not too many digits, and the alphabet is made of
letters and not empty. -/
structure Effect.Writable (e : Effect) : Prop where
  rules : ∀ r ∈ e.added, WritableRule r
  bound : ∀ n ∈ e.bound?, (Text.decimal n).length ≤ Text.maxDigits
  alphabet : ∀ letters ∈ e.alphabet?, letters ≠ [] ∧ Lettered letters

/-! ## Layout -/

/-- Blanks within a line, spaces and tabs for instance. -/
structure Gap where
  text : Text
  blank : ∀ c ∈ text, Text.isBlank c = true
  unbroken : ∀ c ∈ text, Text.isLineEnd c = false

/-- No blanks. -/
def Gap.none : Gap := ⟨[], by simp, by simp⟩

/-- A letter of the alphabet with the blanks around it. -/
structure Entry where
  front : Gap
  letter : Char
  back : Gap

/-- **An alternative as it is written**, with the blanks around it. An empty one may be spelled out. -/
structure Alternative where
  front : Gap
  /-- The right side that is meant. -/
  right : Text
  /-- What stands there. -/
  spelling : Text
  back : Gap
  spells : spelling = right ∨ right = [] ∧ spelling ∈ Rule.emptyMarks

/-- **What a line is meant as.** -/
inductive Row where
  /-- Nothing. -/
  | blank
  /-- The bound, with the blanks on either side of the equals sign. -/
  | bound (n : Nat) (pos : 0 < n) (front back : Gap)
  /-- The alphabet, with the blanks on either side of the equals sign. -/
  | alphabet (letters : List Entry) (front back : Gap)
  /-- Rules with the same left side, with the blanks in front of the arrow. There is one alternative at least. -/
  | rules (left : Text) (some_left : left ≠ []) (gap : Gap) (arrow : Text) (is_arrow : arrow ∈ arrows)
    (first : Alternative) (others : List Alternative)

/-- **A line as it is written**, with the blanks around the row and perhaps a comment. -/
structure WrittenLine where
  front : Gap
  row : Row
  back : Gap
  comment : Option Text
  unbroken : ∀ t ∈ comment, ∀ c ∈ t, Text.isLineEnd c = false

/-- **A grammar file as it is written.** The line end is the same throughout. It stands between the lines, so if there
is to be one at the end of the file, the last line is an empty one. -/
structure Sheet where
  lines : List WrittenLine
  ending : Text
  ends : Text.EndsLine ending

/-! ## Texts and effects -/

def Entry.text (e : Entry) : Text := e.front.text ++ e.letter :: e.back.text

def Alternative.text (a : Alternative) : Text := a.front.text ++ a.spelling ++ a.back.text

namespace Row

/-- What stands in the line. -/
def text : Row → Text
  | blank => []
  | bound n _ front back => ('n' :: front.text) ++ '=' :: (back.text ++ Text.decimal n)
  | alphabet letters front back =>
    ('L' :: front.text) ++ '=' :: (back.text ++ '{' :: (Text.join [','] (letters.map Entry.text) ++ ['}']))
  | rules left _ gap arrow _ first others =>
    left ++ gap.text ++ arrow ++ Text.join ['|'] ((first :: others).map Alternative.text)

/-- What it is meant as. -/
def effect : Row → Effect
  | blank => .blank
  | bound n pos _ _ => .bound n pos
  | alphabet letters _ _ => .alphabet (letters.map fun e => [e.letter])
  | rules left some_left _ _ _ first others =>
    .rules ((first :: others).map fun a => ⟨left, a.right, some_left⟩)

/-- Nobody means a mistake. -/
theorem problem?_effect (row : Row) : row.effect.problem? = none := by cases row <;> rfl

end Row

/-- What stands in the line. -/
def WrittenLine.text (l : WrittenLine) : Text :=
  l.front.text ++ l.row.text ++ l.back.text ++
    match l.comment with
    | none => []
    | some t => '#' :: t

namespace Sheet

/-- **What stands in the file.** -/
def text (s : Sheet) : Text := Text.join s.ending (s.lines.map WrittenLine.text)

/-- **What its lines are meant as.** -/
def meant (s : Sheet) : List Effect := s.lines.map fun l => l.row.effect

end Sheet

/-! ## Gaps -/

namespace Gap

variable (gap : Gap) {c : Char} {t : Text}

theorem not_mem (kept : Text.isBlank c = false) : c ∉ gap.text := fun mem =>
  Bool.false_ne_true (kept.symm.trans (gap.blank c mem))

theorem inner : ∀ c ∈ gap.text, Inner c := fun c mem =>
  ⟨fun same => gap.not_mem (c := '#') (by decide) (same ▸ mem), gap.unbroken c mem⟩

theorem plain : ¬HoldsArrow gap.text := Line.not_holdsArrow_of_not_mem (gap.not_mem (by decide))

/-- Blanks in front bring about no arrow. -/
theorem plain_append (plain : ¬HoldsArrow t) : ¬HoldsArrow (gap.text ++ t) := by
  refine Line.not_holdsArrow_append gap.plain plain fun c last kind => ?_
  have mem := List.mem_of_getLast? last
  rcases kind with rfl | rfl <;> exact absurd mem (gap.not_mem (by decide))

/-- Nor do blanks behind. -/
theorem append_plain (plain : ¬HoldsArrow t) : ¬HoldsArrow (t ++ gap.text) :=
  Line.not_holdsArrow_append plain gap.plain fun _ _ _ first =>
    gap.not_mem (c := '>') (by decide) (List.mem_of_head? first)

/-- Blanks hold no letters. -/
theorem filter_isLetter : gap.text.filter Text.isLetter = [] :=
  List.filter_eq_nil_iff.2 fun c mem letter =>
    Bool.false_ne_true ((Text.isLetter_of_isBlank (gap.blank c mem)).symm.trans letter)

theorem trim_around (front back : Gap) (t : Text) : Text.trim (front.text ++ t ++ back.text) = t.trim :=
  Text.trimWith_append front.blank back.blank t

theorem trim_append (t : Text) : Text.trim (gap.text ++ t) = t.trim := by
  simpa [none] using trim_around gap none t

theorem append_trim (t : Text) : Text.trim (t ++ gap.text) = t.trim := by
  simpa [none] using trim_around none gap t

end Gap

/-! ## Alternatives -/

/-- The spellings of the empty text can stand where a side can, and come to nothing. -/
theorem writable_of_mem_emptyMarks {mark : Text} (mem : mark ∈ Rule.emptyMarks) :
    WritableSide mark ∧ '|' ∉ mark ∧ Rule.withoutMarks mark = [] := by
  have checked : ∀ mark ∈ Rule.emptyMarks, mark.trim = mark ∧ mark.all Inner ∧ '>' ∉ mark ∧ '|' ∉ mark ∧
      Rule.withoutMarks mark = [] := by decide
  obtain ⟨trimmed, inner, no_arrow, no_bar, nothing⟩ := checked mark mem
  exact ⟨⟨trimmed, forall_inner_iff.1 inner, Line.not_holdsArrow_of_not_mem no_arrow⟩, no_bar, nothing⟩

namespace Alternative

variable {a : Alternative} (writable : WritableRight a.right)

include writable

/-- **What stands there** can stand there, has no bars, and comes to what is meant. -/
theorem writable_spelling :
    WritableSide a.spelling ∧ '|' ∉ a.spelling ∧ Rule.withoutMarks a.spelling = a.right := by
  rcases a.spells with same | ⟨nothing, mem⟩
  · rw [same]
    exact ⟨writable.toWritableSide, writable.no_bar, Rule.withoutMarks_of_no_mark writable.no_mark⟩
  · rw [nothing]
    exact writable_of_mem_emptyMarks mem

theorem inner_text : ∀ c ∈ a.text, Inner c := by
  simp only [text, List.forall_mem_append]
  exact ⟨⟨a.front.inner, (writable_spelling writable).1.inner⟩, a.back.inner⟩

theorem plain_text : ¬HoldsArrow a.text :=
  a.back.append_plain (a.front.plain_append (writable_spelling writable).1.plain)

theorem bar_not_mem_text : '|' ∉ a.text := by
  rw [text, List.mem_append, List.mem_append, not_or, not_or]
  exact ⟨⟨a.front.not_mem (by decide), (writable_spelling writable).2.1⟩, a.back.not_mem (by decide)⟩

theorem withoutMarks_trim_text : Rule.withoutMarks (Text.trim a.text) = a.right := by
  obtain ⟨side, -, comes⟩ := writable_spelling writable
  rw [text, Gap.trim_around, side.trimmed, comes]

end Alternative

/-- Bars bring about no arrow. -/
theorem not_holdsArrow_join {texts : List Text} (plain : ∀ t ∈ texts, ¬HoldsArrow t) :
    ¬HoldsArrow (Text.join ['|'] texts) := by
  induction texts with
  | nil => exact Line.not_holdsArrow_of_not_mem List.not_mem_nil
  | cons t texts ih =>
    have here := plain t List.mem_cons_self
    cases texts with
    | nil => rwa [Text.join_singleton]
    | cons u texts =>
      have bar : ¬HoldsArrow ['|'] := Line.not_holdsArrow_of_not_mem (by decide)
      have front : ¬HoldsArrow (t ++ ['|']) := Line.not_holdsArrow_append here bar (by simp)
      rw [Text.join_cons_cons]
      -- in front of the seam stands the bar, with which no arrow begins
      refine Line.not_holdsArrow_append front (ih fun v mem => plain v (List.mem_cons_of_mem t mem)) ?_
      intro c last kind
      rw [List.getLast?_append] at last
      cases Option.some.inj last
      rcases kind with kind | kind <;> cases kind

/-! ## Rows -/

theorem inner_of_isDigit {c : Char} (digit : c.isDigit = true) : Inner c := by
  obtain ⟨least, most⟩ := Text.toNat_of_isDigit digit
  refine ⟨?_, ?_⟩
  · rintro rfl
    exact absurd least (by decide)
  · simp only [Text.isLineEnd, List.contains_eq_mem, decide_eq_false_iff_not, List.mem_cons, List.not_mem_nil,
      or_false, not_or]
    omega

theorem inner_of_isLetter {c : Char} (letter : Text.isLetter c = true) : Inner c :=
  ⟨by rintro rfl; exact absurd letter (by decide), Text.isLineEnd_of_isLetter letter⟩

/-! ### Settings -/

/-- A name, an equals sign and a value with blanks in between are a setting. -/
theorem setting_text (name : Char) (kept : Text.isBlank name = false) (no_sign : name ≠ '=') (no_arrow : name ≠ '>')
    (front back : Gap) {value : Text} (plain : '>' ∉ value) :
    Line.Setting ((name :: front.text) ++ '=' :: (back.text ++ value)) [name] value.trim := by
  have arrow_mem : '>' ∉ (name :: front.text) ++ '=' :: (back.text ++ value) := by
    have in_front := front.not_mem (c := '>') (by decide)
    have in_back := back.not_mem (c := '>') (by decide)
    simp [Ne.symm no_arrow, in_front, in_back, plain]
  -- so the sign that was meant is the first one, whatever the value holds
  have sign_mem : '=' ∉ name :: front.text := by
    have in_front := front.not_mem (c := '=') (by decide)
    simp [Ne.symm no_sign, in_front]
  have setting := Line.Setting.of_sign (Line.not_holdsArrow_of_not_mem arrow_mem) sign_mem
  have name_eq : Text.trim (name :: front.text) = [name] := by
    rw [← List.singleton_append, front.append_trim, Text.trim, Text.trimWith_eq_self (by simpa using kept)]
  rwa [name_eq, back.trim_append] at setting

theorem effect_bound {n : Nat} (pos : 0 < n) (front back : Gap)
    (few : (Text.decimal n).length ≤ Text.maxDigits) :
    Line.effect (Text.trim (Row.bound n pos front back).text) = .bound n pos := by
  have digit {c : Char} (mem : c ∈ Text.decimal n) := Text.isDigit_of_mem_decimal mem
  have plain : '>' ∉ Text.decimal n := fun mem => absurd (digit mem) (by decide)
  have setting := (setting_text 'n' (by decide) (by decide) (by decide) front back plain).trim
  have value : Text.trim (Text.decimal n) = Text.decimal n :=
    Text.trimWith_eq_self fun c mem => Text.isBlank_of_isDigit (digit mem)
  rw [value] at setting
  exact (Line.Means.bound setting (Text.int?_decimal few) pos).effect_eq

/-- The letters between the braces are the letters of the alphabet. -/
theorem filter_isLetter_join {letters : List Entry} (lettered : ∀ e ∈ letters, Text.isLetter e.letter = true) :
    (Text.join [','] (letters.map Entry.text)).filter Text.isLetter = letters.map Entry.letter := by
  have entry (e : Entry) (mem : e ∈ letters) : e.text.filter Text.isLetter = [e.letter] := by
    rw [Entry.text, List.filter_append, e.front.filter_isLetter, List.filter_cons_of_pos (lettered e mem),
      e.back.filter_isLetter, List.nil_append]
  rw [Text.filter_join (by decide), List.flatMap_map, List.flatMap_congr entry, ← List.map_eq_flatMap]

theorem effect_alphabet {letters : List Entry} (front back : Gap) (some_letter : letters ≠ [])
    (lettered : ∀ e ∈ letters, Text.isLetter e.letter = true) :
    Line.effect (Text.trim (Row.alphabet letters front back).text) =
      .alphabet (letters.map fun e => [e.letter]) := by
  have entries : ∀ c ∈ Text.join [','] (letters.map Entry.text), c ≠ '>' := by
    refine Text.forall_mem_join (List.forall_mem_singleton.2 (by decide))
      (List.forall_mem_map.2 fun e mem c found => ?_)
    rintro rfl
    rw [Entry.text, List.mem_append, List.mem_cons] at found
    rcases found with found | same | found
    · exact e.front.not_mem (by decide) found
    · exact absurd (lettered e mem) (by rw [← same]; decide)
    · exact e.back.not_mem (by decide) found
  have plain : '>' ∉ '{' :: (Text.join [','] (letters.map Entry.text) ++ ['}']) := fun mem => by
    have inside : '>' ∈ Text.join [','] (letters.map Entry.text) := by simpa using mem
    exact entries '>' inside rfl
  have setting := (setting_text 'L' (by decide) (by decide) (by decide) front back plain).trim
  have kept : (Text.trim ('{' :: (Text.join [','] (letters.map Entry.text) ++ ['}']))).filter Text.isLetter =
      letters.map Entry.letter := by
    rw [Text.filter_isLetter_trim, List.filter_cons_of_neg (by decide), List.filter_append,
      filter_isLetter_join lettered, List.filter_cons_of_neg (by decide), List.filter_nil, List.append_nil]
  have means := Line.Means.alphabet setting (by rw [kept]; simpa using some_letter)
  rw [kept, List.map_map] at means
  exact means.effect_eq

/-! ### Rules -/

/-- The alternatives of a row of rules come to what is meant, whatever blanks stand around them. -/
theorem alternatives_join {alternatives : List Alternative} (some_alternative : alternatives ≠ [])
    (writable : ∀ a ∈ alternatives, WritableRight a.right) :
    Line.alternatives (Text.trim (Text.join ['|'] (alternatives.map Alternative.text))) =
      alternatives.map Alternative.right := by
  have bars : ∀ t ∈ alternatives.map Alternative.text, '|' ∉ t :=
    List.forall_mem_map.2 fun a mem => Alternative.bar_not_mem_text (writable a mem)
  -- the line was trimmed before it is cut, which took blanks from the first and the last alternative
  have pieces : ((Text.trim (Text.join ['|'] (alternatives.map Alternative.text))).cut ['|']).map Text.trim =
      (alternatives.map Alternative.text).map Text.trim := by
    conv_rhs => rw [← Text.cut_join_singleton (by simpa using some_alternative) bars]
    exact Text.map_trimWith_cut_trimWith (by decide) _
  calc Line.alternatives (Text.trim (Text.join ['|'] (alternatives.map Alternative.text)))
      = (((Text.trim (Text.join ['|'] (alternatives.map Alternative.text))).cut ['|']).map Text.trim).map
          Rule.withoutMarks := by rw [List.map_map]; rfl
    _ = alternatives.map fun a => Rule.withoutMarks (Text.trim a.text) := by
        rw [pieces, List.map_map, List.map_map]; rfl
    _ = alternatives.map Alternative.right :=
        List.map_congr_left fun a mem => Alternative.withoutMarks_trim_text (writable a mem)

theorem effect_rules {left : Text} (some_left : left ≠ []) (gap : Gap) {arrow : Text} (is_arrow : arrow ∈ arrows)
    (first : Alternative) (others : List Alternative) (left_writable : WritableSide left)
    (right_writable : ∀ a ∈ first :: others, WritableRight a.right) :
    Line.effect (Text.trim (Row.rules left some_left gap arrow is_arrow first others).text) =
      .rules ((first :: others).map fun a => ⟨left, a.right, some_left⟩) := by
  have behind : ¬HoldsArrow (Text.join ['|'] ((first :: others).map Alternative.text)) :=
    not_holdsArrow_join (List.forall_mem_map.2 fun a mem => Alternative.plain_text (right_writable a mem))
  have sides := (Line.Sides.of_arrow is_arrow (gap.append_plain left_writable.plain) behind).trim
  rw [gap.append_trim, left_writable.trimmed] at sides
  rw [Row.text, sides.effect_eq, Line.ruleEffect, dif_neg some_left,
    alternatives_join (List.cons_ne_nil _ _) right_writable, List.map_map]
  rfl

/-! ### All rows -/

namespace Row

variable {left : Text} {some_left : left ≠ []} {gap : Gap} {arrow : Text} {is_arrow : arrow ∈ arrows}
  {first : Alternative} {others : List Alternative} {letters : List Entry} {front back : Gap} {row : Row}

theorem isLetter_of_writable (writable : (alphabet letters front back).effect.Writable) :
    ∀ e ∈ letters, Text.isLetter e.letter = true := by
  intro e mem
  obtain ⟨c, same, letter⟩ := (writable.alphabet _ rfl).2 [e.letter] (List.mem_map_of_mem mem)
  rwa [List.head_eq_of_cons_eq same]

theorem writableRule_of_writable
    (writable : (rules left some_left gap arrow is_arrow first others).effect.Writable) :
    ∀ a ∈ first :: others, WritableRule ⟨left, a.right, some_left⟩ := fun _ mem =>
  writable.rules _ (List.mem_map_of_mem mem)

/-- Every character of a row can stand in front of a comment. -/
theorem inner_text (writable : row.effect.Writable) : ∀ c ∈ row.text, Inner c := by
  cases row with
  | blank => exact fun _ mem => absurd mem List.not_mem_nil
  | bound n pos front back =>
    have digits : ∀ c ∈ Text.decimal n, Inner c := fun _ mem =>
      inner_of_isDigit (Text.isDigit_of_mem_decimal mem)
    simp only [text, List.forall_mem_append, List.forall_mem_cons]
    exact ⟨⟨by decide, front.inner⟩, by decide, back.inner, digits⟩
  | alphabet letters front back =>
    have entries : ∀ c ∈ Text.join [','] (letters.map Entry.text), Inner c := by
      refine Text.forall_mem_join (List.forall_mem_singleton.2 (by decide)) (List.forall_mem_map.2 fun e mem => ?_)
      simp only [Entry.text, List.forall_mem_append, List.forall_mem_cons]
      exact ⟨e.front.inner, inner_of_isLetter (isLetter_of_writable writable e mem), e.back.inner⟩
    simp only [text, List.forall_mem_append, List.forall_mem_cons]
    exact ⟨⟨by decide, front.inner⟩, by decide, back.inner, by decide, entries, by decide,
      List.forall_mem_nil _⟩
  | rules left some_left gap arrow is_arrow first others =>
    have writable := writableRule_of_writable writable
    have alternatives : ∀ c ∈ Text.join ['|'] ((first :: others).map Alternative.text), Inner c :=
      Text.forall_mem_join (List.forall_mem_singleton.2 (by decide))
        (List.forall_mem_map.2 fun a mem => Alternative.inner_text (writable a mem).right)
    have arrow_inner : ∀ c ∈ arrow, Inner c := by
      obtain ⟨c, rfl | rfl, rfl⟩ := Line.eq_of_mem_arrows is_arrow <;>
        exact List.forall_mem_cons.2 ⟨by decide, List.forall_mem_singleton.2 (by decide)⟩
    simp only [text, List.forall_mem_append]
    exact ⟨⟨⟨(writable first List.mem_cons_self).left.inner, gap.inner⟩, arrow_inner⟩, alternatives⟩

/-- **A row is read as what it is meant as.** -/
theorem effect_trim_text (writable : row.effect.Writable) :
    Line.effect (Text.trim row.text) = row.effect := by
  cases row with
  | blank => rfl
  | bound n pos front back => exact effect_bound pos front back (writable.bound n rfl)
  | alphabet letters front back =>
    have some_letter : letters ≠ [] := by simpa using (writable.alphabet _ rfl).1
    exact effect_alphabet front back some_letter (isLetter_of_writable writable)
  | rules left some_left gap arrow is_arrow first others =>
    have writable := writableRule_of_writable writable
    exact effect_rules some_left gap is_arrow first others (writable first List.mem_cons_self).left
      fun a mem => (writable a mem).right

end Row

/-! ## Lines -/

namespace WrittenLine

variable {l : WrittenLine} (writable : l.row.effect.Writable)

include writable

/-- No line end stands in a line, not even in its comment. -/
theorem unbroken_text : ∀ c ∈ l.text, Text.isLineEnd c = false := by
  have comment : ∀ t ∈ l.comment, ∀ c ∈ '#' :: t, Text.isLineEnd c = false := fun t given =>
    List.forall_mem_cons.2 ⟨by decide, l.unbroken t given⟩
  simp only [text, List.forall_mem_append]
  refine ⟨⟨⟨l.front.unbroken, fun c mem => (Row.inner_text writable c mem).2⟩, l.back.unbroken⟩, ?_⟩
  cases given : l.comment with
  | none => simp
  | some t => exact comment t given

/-- **A line is read as what it is meant as**, whatever stands around the row and behind it. -/
theorem effect_content : Line.effect (Line.content l.text) = l.row.effect := by
  have no_mark : '#' ∉ l.front.text ++ l.row.text ++ l.back.text := by
    rw [List.mem_append, List.mem_append, not_or, not_or]
    exact ⟨⟨fun mem => (l.front.inner _ mem).1 rfl, fun mem => (Row.inner_text writable _ mem).1 rfl⟩,
      fun mem => (l.back.inner _ mem).1 rfl⟩
  have front : l.text.before '#' = l.front.text ++ l.row.text ++ l.back.text := by
    rw [text]
    cases l.comment with
    | none => exact (congrArg (Text.before · '#') (List.append_nil _)).trans (Line.before_of_not_mem no_mark)
    | some t => exact Line.before_append_cons no_mark t
  rw [Line.content, front, Gap.trim_around, Row.effect_trim_text writable]

end WrittenLine

end SemiThue.Grammar.Source
