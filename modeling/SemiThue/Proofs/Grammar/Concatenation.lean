/-
Grammar files that are put together of two parts.

A part that ends in a line feed keeps its lines when something follows it, and so does what follows. Reading the
whole is therefore reading the lines of the first part and then those of the second one, with what was gathered
carried over. What the whole comes to can be told from what the parts come to, each read on its own: rules and
complaints follow each other, the complaints of the second part under the numbers that its lines have in the whole,
and a setting is that of the last line that makes it, wherever this line is (`LastSet`). What is missing in a part
alone may be in the other one. So only what both parts lack is complained about in the end.
-/
import SemiThue.Proofs.Grammar.Loading
import SemiThue.Proofs.Text.Lines

set_option autoImplicit false

namespace SemiThue.Grammar.Source

/-! ## The last line that sets something -/

/-- **What the last of the lines sets** that set something of a kind, if there is such a line. -/
inductive LastSet {α : Type} (sets : Effect → Option α) : List Text → Option α → Prop where
  /-- No line sets anything of the kind. -/
  | never {lines : List Text}
      (silent : ∀ raw ∈ lines, ∀ e, Line.Means (Line.content raw) e → sets e = none) :
      LastSet sets lines none
  /-- A line sets something, and no line below it does. -/
  | last {above below : List Text} {raw : Text} {e : Effect} {value : α}
      (means : Line.Means (Line.content raw) e) (given : sets e = some value)
      (silent : ∀ raw ∈ below, ∀ e, Line.Means (Line.content raw) e → sets e = none) :
      LastSet sets (above ++ raw :: below) (some value)

section LastSet

variable {α : Type} {sets : Effect → Option α} {lines : List Text} {value : Option α}

theorem effects_append (above below : List Text) : effects (above ++ below) = effects above ++ effects below :=
  List.map_append

/-- A line without content sets nothing, so a line that means nothing that is set has no effect that is. -/
theorem set_effect_eq_none (blank : sets .blank = none) {raw : Text}
    (silent : ∀ e, Line.Means (Line.content raw) e → sets e = none) :
    sets (Line.effect (Line.content raw)) = none := by
  by_cases some_content : Line.content raw = []
  · rw [some_content]
    exact blank
  · exact silent _ (Line.means_effect some_content)

theorem filterMap_effects_eq_nil (blank : sets .blank = none)
    (silent : ∀ raw ∈ lines, ∀ e, Line.Means (Line.content raw) e → sets e = none) :
    (effects lines).filterMap sets = [] := by
  rw [List.filterMap_eq_nil_iff]
  intro e mem
  obtain ⟨raw, line, rfl⟩ := List.mem_map.1 mem
  exact set_effect_eq_none blank (silent raw line)

/-- A further line that sets nothing changes nothing. -/
theorem LastSet.concat (h : LastSet sets lines value) {raw : Text}
    (silent : ∀ e, Line.Means (Line.content raw) e → sets e = none) : LastSet sets (lines ++ [raw]) value := by
  cases h with
  | never silent' =>
    exact .never fun other mem => (List.mem_append.1 mem).elim (silent' other) fun mem =>
      List.mem_singleton.1 mem ▸ silent
  | last means given silent' =>
    rw [List.append_assoc, List.cons_append]
    exact .last means given fun other mem => (List.mem_append.1 mem).elim (silent' other) fun mem =>
      List.mem_singleton.1 mem ▸ silent

theorem lastSet_getLast? (blank : sets .blank = none) (lines : List Text) :
    LastSet sets lines ((effects lines).filterMap sets).getLast? := by
  induction lines using List.reverseRecOn with
  | nil => exact .never fun raw mem => absurd mem List.not_mem_nil
  | append_singleton lines raw ih =>
    rw [effects_append, List.filterMap_append]
    cases given : sets (Line.effect (Line.content raw)) with
    | none =>
      have nothing : (effects [raw]).filterMap sets = [] := List.filterMap_cons_none given
      rw [nothing, List.append_nil]
      exact ih.concat fun e means => means.effect_eq ▸ given
    | some value =>
      have one : (effects [raw]).filterMap sets = [value] := List.filterMap_cons_some given
      have some_content : Line.content raw ≠ [] := by
        intro nothing
        rw [nothing] at given
        exact absurd (blank.symm.trans given) (Option.some_ne_none value).symm
      rw [one, List.getLast?_concat]
      exact .last (Line.means_effect some_content) given fun other mem => absurd mem List.not_mem_nil

/-- **What the last line sets is settled**: it is the last of what all lines set, in order. -/
theorem lastSet_iff (blank : sets .blank = none) :
    LastSet sets lines value ↔ ((effects lines).filterMap sets).getLast? = value := by
  constructor
  · intro h
    cases h with
    | never silent => rw [filterMap_effects_eq_nil blank silent, List.getLast?_nil]
    | last means given silent =>
      rw [effects_append, effects_cons, List.filterMap_append, means.effect_eq,
        List.filterMap_cons_some given, filterMap_effects_eq_nil blank silent, List.getLast?_concat]
  · rintro rfl
    exact lastSet_getLast? blank lines

end LastSet

/-! ## Complaints further down -/

/-- The complaint about a line that has so many lines more above it. -/
def Diagnostic.further (lines : Nat) (d : Diagnostic) : Diagnostic := { d with line := d.line.map (· + lines) }

theorem complaints_append (number : Nat) (above below : List Text) : complaints number (above ++ below) =
    complaints number above ++ complaints (number + above.length) below := by
  rw [complaints, List.zipIdx_append, List.filterMap_append, ← complaints, ← complaints]

/-- **Complaints about lines further down** differ in the numbers of the lines. -/
theorem complaints_add (number more : Nat) (lines : List Text) :
    complaints (number + more) lines = (complaints number lines).map (Diagnostic.further more) := by
  induction lines generalizing number with
  | nil => rfl
  | cons raw lines ih =>
    rw [complaints_cons, complaints_cons, List.map_append, ← ih, Nat.add_right_comm]
    cases (Line.effect (Line.content raw)).problem? <;> rfl

namespace Loaded

/-- The complaints about lines. -/
def aboutLines (l : Loaded) : List Diagnostic := l.diagnostics.filter fun d => d.line.isSome

theorem aboutLines_ofText (source origin : Text) :
    (ofText source origin).aboutLines = complaints 1 source.lines := by
  have lines : (complaints 1 source.lines).filter (fun d => d.line.isSome) = complaints 1 source.lines := by
    rw [List.filter_eq_self]
    intro d mem
    obtain ⟨-, -, -, -, -, -, rfl⟩ := mem_complaints mem
    rfl
  have file : (lacking (Draft.ofLines origin source.lines)).filter (fun d => d.line.isSome) = [] := by
    unfold lacking
    split <;> split <;> rfl
  rw [aboutLines, diagnostics_ofText, List.filter_append, lines, file, List.append_nil]

/-! ## Two parts -/

/-- **A text is read in parts**, if the first one ends in a line feed. The rules of the whole are those of the first
part and then those of the second one. The bound and the terminals are those that the last line sets that sets any,
in the second part if there is such a line, otherwise in the first one; without any the bound is 5 and there are no
terminals. The complaints about lines are those of the first part and then those of the second one, whose lines have
all lines of the first part above them. Behind them it is complained about what neither part has. -/
theorem concatenations_are_read_in_parts {first : Text} (ends : ['\n'] <:+ first) (second origin : Text) :
    let front := ofText first origin
    let back := ofText second origin
    let whole := ofText (first ++ second) origin
    whole.grammar.rules = front.grammar.rules ++ back.grammar.rules ∧
      (∃ bound bound', LastSet Effect.bound? first.lines bound ∧ LastSet Effect.bound? second.lines bound' ∧
        whole.grammar.bound = (bound'.or bound).getD 5) ∧
      ∃ alphabet alphabet', LastSet Effect.alphabet? first.lines alphabet ∧
        LastSet Effect.alphabet? second.lines alphabet' ∧
        whole.grammar.terminals = normalTerminals ((alphabet'.or alphabet).getD []) ∧
        whole.diagnostics =
          front.aboutLines ++ back.aboutLines.map (Diagnostic.further first.lines.length) ++
            ((if alphabet = none ∧ alphabet' = none then [.ofFile .noAlphabet] else []) ++
              if front.grammar.rules = [] ∧ back.grammar.rules = [] then [.ofFile .noRules] else []) := by
  intro front back whole
  have effects_eq : effects (first ++ second).lines = effects first.lines ++ effects second.lines := by
    rw [Text.lines_append ends, effects_append]
  have rules : whole.grammar.rules = front.grammar.rules ++ back.grammar.rules := by
    simp only [whole, front, back, rules_ofText]
    rw [effects_eq, List.flatMap_append]
  refine ⟨rules, ⟨_, _, (lastSet_iff rfl).2 rfl, (lastSet_iff rfl).2 rfl, ?_⟩,
    _, _, (lastSet_iff rfl).2 rfl, (lastSet_iff rfl).2 rfl, ?_, ?_⟩
  · simp only [whole, bound_ofText]
    rw [effects_eq, List.filterMap_append, List.getLast?_append]
    rfl
  · simp only [whole, terminals_ofText]
    rw [effects_eq, List.filterMap_append, List.getLast?_append]
  · have missing : (ofText (first ++ second) origin).grammar.rules = [] ↔
        (ofText first origin).grammar.rules = [] ∧ (ofText second origin).grammar.rules = [] := by
      rw [rules, List.append_eq_nil_iff]
    simp only [whole, front, back]
    rw [diagnostics_ofText, lacking_ofLines, ← rules_ofText _ origin, aboutLines_ofText, aboutLines_ofText,
      ← complaints_add, Text.lines_append ends, complaints_append, effects_append, List.filterMap_append,
      List.getLast?_append]
    simp only [missing, Option.or_eq_none_iff, and_comm]

/-- The first part sets the bound and lacks an alphabet and rules; the second one has these, and a bound that is not
accepted, in its fourth line, which is the sixth of the whole. -/
theorem concatenations_are_read_in_parts_lacking :
    let first : Text := "n=7\r\nq\n".toList
    let second : Text := "\nL=b\nS->a\nn=0".toList
    let whole := ofText (first ++ second) nowhere
    ['\n'] <:+ first ∧ whole.grammar.bound = 7 ∧
      whole.grammar.rules = [⟨['S'], ['a'], List.cons_ne_nil _ _⟩] ∧
      whole.diagnostics = [.ofLine 2 .unreadable ['q'], .ofLine 6 .boundNotPositive ['n', '=', '0']] := by
  intro first second whole
  have ends : ['\n'] <:+ first := by decide
  obtain ⟨rules, ⟨bound, bound', set, set', bound_eq⟩, alphabet, alphabet', given, given', -, diagnostics⟩ :=
    concatenations_are_read_in_parts ends second nowhere
  obtain rfl : some 7 = bound := (lastSet_iff rfl).1 set
  obtain rfl : none = bound' := (lastSet_iff rfl).1 set'
  obtain rfl : none = alphabet := (lastSet_iff rfl).1 given
  obtain rfl : some [['b']] = alphabet' := (lastSet_iff rfl).1 given'
  refine ⟨ends, bound_eq, ?_, ?_⟩
  · rw [rules, rules_ofText, rules_ofText]
    rfl
  · rw [diagnostics, aboutLines_ofText, aboutLines_ofText, rules_ofText, rules_ofText]
    rfl

end Loaded

end SemiThue.Grammar.Source
