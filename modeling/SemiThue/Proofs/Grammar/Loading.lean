/-
What loading a grammar makes of a file.

Every line that holds something has one effect, and it is either what the line means or a complaint about it; what is
missing in the end is complained about as well. Complaints are kept with the numbers of their lines, so their order is
the order of the lines. No text makes loading fail: what was gathered is always a grammar.
-/
import SemiThue.Proofs.Grammar.Letters

set_option autoImplicit false

namespace SemiThue.Grammar.Source

variable {number : Nat} {d : Draft} {e : Effect}

/-! ## Complaints about lines -/

theorem Effect.eq_mistake_of_problem? {problem : Problem} (h : e.problem? = some problem) :
    e = .mistake problem := by
  cases e with
  | mistake p => rw [Option.some.inj h]
  | _ => cases h

/-- A complaint about a line has the number and the content of the line. -/
theorem mem_complaints {lines : List Text} {diagnostic : Diagnostic}
    (mem : diagnostic ∈ complaints number lines) : ∃ above raw below problem, lines = above ++ raw :: below ∧
      Line.effect (Line.content raw) = .mistake problem ∧
        diagnostic = .ofLine (number + above.length) problem (Line.content raw) := by
  induction lines generalizing number with
  | nil => cases mem
  | cons raw lines ih =>
    rw [complaints_cons, List.mem_append, Option.mem_toList, Option.map_eq_some_iff] at mem
    rcases mem with ⟨problem, is_mistake, rfl⟩ | mem
    · exact ⟨[], raw, lines, problem, rfl, Effect.eq_mistake_of_problem? is_mistake, rfl⟩
    · obtain ⟨above, raw', below, problem, rfl, is_mistake, rfl⟩ := ih mem
      refine ⟨raw :: above, raw', below, problem, rfl, is_mistake, ?_⟩
      rw [List.length_cons, Nat.add_comm above.length 1, ← Nat.add_assoc]

/-- **Complaints come in the order of the lines**, one about a line at most. -/
theorem pairwise_complaints (number : Nat) (lines : List Text) :
    (complaints number lines).Pairwise fun a b => ∃ m n : Nat, a.line = some ↑m ∧ b.line = some ↑n ∧ m < n := by
  induction lines generalizing number with
  | nil => exact List.Pairwise.nil
  | cons raw lines ih =>
    rw [complaints_cons]
    refine List.pairwise_append.2 ⟨?_, ih (number + 1), fun a first b other => ?_⟩
    · cases (Line.effect (Line.content raw)).problem? with
      | none => exact List.Pairwise.nil
      | some problem => exact List.pairwise_singleton _ _
    · obtain ⟨problem, -, rfl⟩ := Option.map_eq_some_iff.1 (Option.mem_toList.1 first)
      obtain ⟨above, raw', below, problem', -, -, rfl⟩ := mem_complaints other
      exact ⟨number, number + 1 + above.length, rfl, rfl, by omega⟩

/-! ## Complaints about files -/

theorem sublist_lacking (d : Draft) : (lacking d).Sublist [.ofFile .noAlphabet, .ofFile .noRules] := by
  unfold lacking
  split <;> split <;> simp

theorem noAlphabet_ne_noRules : Diagnostic.ofFile .noAlphabet ≠ .ofFile .noRules := by
  intro same
  have messages : Problem.message .noAlphabet = Problem.message .noRules := congrArg Diagnostic.message same
  exact absurd messages (by decide)

theorem noAlphabet_mem_lacking_iff : .ofFile .noAlphabet ∈ lacking d ↔ d.alphabet = none := by
  have others : Diagnostic.ofFile .noAlphabet ∉ if d.rules = [] then [.ofFile .noRules] else [] := by
    split
    · exact fun mem => noAlphabet_ne_noRules (List.mem_singleton.1 mem)
    · exact List.not_mem_nil
  rw [lacking, List.mem_append, or_iff_left others]
  split
  · exact iff_of_true List.mem_cons_self ‹_›
  · exact iff_of_false List.not_mem_nil ‹_›

theorem noRules_mem_lacking_iff : .ofFile .noRules ∈ lacking d ↔ d.rules = [] := by
  have others : Diagnostic.ofFile .noRules ∉ if d.alphabet = none then [.ofFile .noAlphabet] else [] := by
    split
    · exact fun mem => noAlphabet_ne_noRules (List.mem_singleton.1 mem).symm
    · exact List.not_mem_nil
  rw [lacking, List.mem_append, or_iff_right others]
  split
  · exact iff_of_true List.mem_cons_self ‹_›
  · exact iff_of_false List.not_mem_nil ‹_›

/-- **The alphabet is missing** if no line means one. -/
theorem alphabet_ofLines_eq_none_iff (origin : Text) (lines : List Text) :
    (Draft.ofLines origin lines).alphabet = none ↔
      ∀ raw ∈ lines, ∀ letters, ¬Line.Means (Line.content raw) (.alphabet letters) := by
  constructor
  · intro missing raw mem letters means
    rw [Draft.ofLines, Draft.alphabet_read, Option.or_eq_none_iff, List.getLast?_eq_none_iff,
      List.filterMap_eq_nil_iff] at missing
    cases missing.1 _ (effect_mem_of_means mem means)
  · intro none
    by_contra given
    obtain ⟨letters, given⟩ := Option.ne_none_iff_exists'.1 given
    obtain ⟨raw, mem, means⟩ := exists_means_of_alphabet given
    exact none raw mem letters means

/-- **Rules are missing** if no line means some. -/
theorem rules_ofLines_eq_nil_iff (origin : Text) (lines : List Text) :
    (Draft.ofLines origin lines).rules = [] ↔
      ∀ raw ∈ lines, ∀ added, ¬Line.Means (Line.content raw) (.rules added) := by
  constructor
  · intro missing raw mem added means
    rw [Draft.ofLines, Draft.rules_read, List.append_nil, List.reverse_eq_nil_iff,
      List.flatMap_eq_nil_iff] at missing
    exact means.added_ne_nil (missing _ (effect_mem_of_means mem means))
  · intro none
    by_contra given
    obtain ⟨r, given⟩ := List.exists_mem_of_ne_nil _ given
    obtain ⟨raw, mem, added, means, -⟩ := exists_means_of_rule given
    exact none raw mem added means

/-! ## Every line -/

namespace Loaded

/-- **Every line has one effect, and loading comes to a grammar.** A line without content changes nothing. Any
other line means one thing and no other, and changes what was gathered before it by that and by nothing else.
The complaints are those about lines, in the order of the lines and each with the number and the content of its
line, and at most two behind them, which say that no line means an alphabet, and that no line means rules. What
was gathered meets what is asked of a grammar: none is refused, and it has a positive bound, letters for its
terminals, and no rule without a left side. -/
theorem every_line_has_one_effect (source origin : Text) :
    let loaded := ofText source origin
    let last := Draft.ofLines origin source.lines
    (∀ above raw below, source.lines = above ++ raw :: below →
      let content := Line.content raw
      let d := Draft.ofLines origin above
      let d' := Draft.ofLines origin (above ++ [raw])
      (content = [] → d' = d) ∧
        (content ≠ [] → ∃ e, Line.Means content e ∧ (∀ e', Line.Means content e' → e' = e) ∧
          d.Follows (above.length + 1) content d' e)) ∧
    (∃ aboutFile, loaded.diagnostics = last.diagnostics.reverse ++ aboutFile ∧
      (last.diagnostics.reverse.Pairwise fun a b =>
        ∃ m n : Nat, a.line = some ↑m ∧ b.line = some ↑n ∧ m < n) ∧
      (∀ a ∈ last.diagnostics, ∃ above raw below problem, source.lines = above ++ raw :: below ∧
        Line.Means (Line.content raw) (.mistake problem) ∧
          a = .ofLine (above.length + 1) problem (Line.content raw)) ∧
      aboutFile.Sublist [.ofFile .noAlphabet, .ofFile .noRules] ∧
      (.ofFile .noAlphabet ∈ aboutFile ↔
        ∀ raw ∈ source.lines, ∀ letters, ¬Line.Means (Line.content raw) (.alphabet letters)) ∧
      (.ofFile .noRules ∈ aboutFile ↔
        ∀ raw ∈ source.lines, ∀ added, ¬Line.Means (Line.content raw) (.rules added))) ∧
    Grammar.make last.bound (last.alphabet.getD []) last.rules.reverse = .ok loaded.grammar ∧
    0 < loaded.grammar.bound ∧ Lettered loaded.grammar.terminals ∧ ∀ r ∈ loaded.grammar.rules, r.left ≠ [] := by
  intro loaded last
  have grammar_eq : loaded.grammar = last.grammar := grammar_ofText source origin
  refine ⟨fun above raw below split => ?_, ⟨lacking last, ?_, ?_, ?_, ?_, ?_, ?_⟩, ?_, loaded.grammar.bound_pos,
    lettered_ofText source origin, fun r _ => r.left_ne_nil⟩
  · intro content d d'
    have d'_eq : d' = d.take origin (above.length + 1) content (Line.effect content) :=
      Draft.ofLines_concat origin above raw
    refine ⟨fun nothing => ?_, fun some_content => ?_⟩
    · rw [d'_eq, nothing]
      rfl
    · refine ⟨Line.effect content, Line.means_effect some_content, fun e' means => means.effect_eq.symm, ?_⟩
      rw [d'_eq]
      exact Draft.follows_take ..
  · rw [Draft.diagnostics_ofLines]
    exact diagnostics_ofText source origin
  · rw [Draft.diagnostics_ofLines]
    exact pairwise_complaints 1 source.lines
  · intro a mem
    rw [← List.mem_reverse, Draft.diagnostics_ofLines] at mem
    obtain ⟨above, raw, below, problem, split, is_mistake, same⟩ := mem_complaints mem
    have some_content : Line.content raw ≠ [] := by
      intro nothing
      rw [nothing] at is_mistake
      cases is_mistake
    exact ⟨above, raw, below, problem, split, Line.means_iff.2 ⟨some_content, is_mistake⟩,
      by rw [same, Nat.add_comm]⟩
  · exact sublist_lacking last
  · rw [← alphabet_ofLines_eq_none_iff origin]
    exact noAlphabet_mem_lacking_iff
  · rw [← rules_ofLines_eq_nil_iff origin]
    exact noRules_mem_lacking_iff
  · rw [grammar_eq]
    exact last.make_grammar

/-- A file of two lines, `n=0` and `S->a|`: the second one means two rules, and the complaints are about the first
one, and about no lack of rules. -/
theorem every_line_has_one_effect_mistaken :
    let first : Text := ['n', '=', '0']
    let second : Text := ['S', '-', '>', 'a', '|']
    let source : Text := first ++ '\n' :: second
    let added : List Rule := [⟨['S'], ['a'], List.cons_ne_nil _ _⟩, ⟨['S'], [], List.cons_ne_nil _ _⟩]
    source.lines = [first] ++ second :: [] ∧ Line.content second ≠ [] ∧
      Line.Means (Line.content second) (.rules added) ∧
      (Draft.ofLines nowhere ([first] ++ [second])).rules = added.reverse ∧
      ∃ aboutFile, (ofText source nowhere).diagnostics = .ofLine 1 .boundNotPositive first :: aboutFile ∧
        .ofFile .noRules ∉ aboutFile := by
  intro first second source added
  have split : source.lines = [first] ++ second :: [] := by decide
  have some_content : Line.content second ≠ [] := by decide
  obtain ⟨lines, ⟨aboutFile, diagnostics, -, -, -, -, no_rules⟩, -⟩ := every_line_has_one_effect source nowhere
  obtain ⟨-, changes⟩ := lines [first] second [] split
  obtain ⟨e, means, -, follows⟩ := changes some_content
  have e_eq : e = .rules added := means.effect_eq.symm.trans rfl
  subst e_eq
  refine ⟨split, some_content, means, ?_, aboutFile, diagnostics, fun missing => ?_⟩
  · rw [follows]
    rfl
  · exact no_rules.1 missing second (by rw [split]; simp) added means

end Loaded

end SemiThue.Grammar.Source
