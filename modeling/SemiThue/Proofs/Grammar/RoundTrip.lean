/-
Grammars that are written and read back.

A sheet states a grammar if its rows say so: one of them the bound, one of them the alphabet, in any order and with
repeats, and the others the rules, in order and with as many of them on a line as have the same left side. Whatever
the layout, what is read is the grammar, and there is nothing to complain about (`written_grammars_are_read_back`).

The line end at the end of a file begins no line. So a sheet may have one line more than are read, but an empty one,
and nothing depends on that (`Sheet.effects_lines`).
-/
import SemiThue.Proofs.Grammar.Sheet
import SemiThue.Proofs.Text.Order

set_option autoImplicit false

namespace SemiThue.Grammar.Source

variable {g : Grammar} {s : Sheet}

/-! ## Grammars and sheets -/

/-- **A grammar that can be written**: the bound has not too many digits, there are terminals, all of them letters and
in the form in which grammars hold them, and there are rules, all of which can be written. -/
structure Writable (g : Grammar) : Prop where
  few_digits : (Text.decimal g.bound).length ≤ Text.maxDigits
  some_terminal : g.terminals ≠ []
  lettered : Lettered g.terminals
  normal : normalTerminals g.terminals = g.terminals
  some_rule : g.rules ≠ []
  rules : ∀ r ∈ g.rules, WritableRule r

namespace Sheet

/-- **The sheet states the grammar.** -/
structure States (s : Sheet) (g : Grammar) : Prop where
  bound : s.meant.filterMap Effect.bound? = [g.bound]
  alphabet : ∃ letters, s.meant.filterMap Effect.alphabet? = [letters] ∧ ∀ t, t ∈ letters ↔ t ∈ g.terminals
  rules : s.meant.flatMap Effect.added = g.rules

/-- What a sheet says of a grammar that can be written can be written. -/
theorem States.writable (states : s.States g) (writable : Writable g) :
    ∀ l ∈ s.lines, l.row.effect.Writable := by
  intro l found
  have mem : l.row.effect ∈ s.meant := List.mem_map_of_mem found
  refine ⟨fun r added => ?_, fun n bound => ?_, fun letters alphabet => ?_⟩
  · exact writable.rules r (states.rules ▸ List.mem_flatMap.2 ⟨_, mem, added⟩)
  · have stated : n ∈ s.meant.filterMap Effect.bound? := List.mem_filterMap.2 ⟨_, mem, bound⟩
    rw [states.bound, List.mem_singleton] at stated
    exact stated ▸ writable.few_digits
  · obtain ⟨letters', only, same⟩ := states.alphabet
    have stated : letters ∈ s.meant.filterMap Effect.alphabet? := List.mem_filterMap.2 ⟨_, mem, alphabet⟩
    rw [only, List.mem_singleton] at stated
    subst stated
    obtain ⟨t, terminal⟩ := List.exists_mem_of_ne_nil _ writable.some_terminal
    exact ⟨List.ne_nil_of_mem ((same t).2 terminal), fun t mem => writable.lettered t ((same t).1 mem)⟩

/-! ## Lines -/

/-- **The lines of the file mean what the rows of the sheet are meant as**, but perhaps for an empty one at the end. -/
theorem effects_lines (writable : ∀ l ∈ s.lines, l.row.effect.Writable) :
    effects s.text.lines = s.meant ∨ effects s.text.lines ++ [.blank] = s.meant := by
  have unbroken : ∀ t ∈ s.lines.map WrittenLine.text, ∀ c ∈ t, Text.isLineEnd c = false :=
    List.forall_mem_map.2 fun l mem => WrittenLine.unbroken_text (writable l mem)
  have as_meant : effects (s.lines.map WrittenLine.text) = s.meant := by
    rw [effects, List.map_map]
    exact List.map_congr_left fun l mem => WrittenLine.effect_content (writable l mem)
  refine (Text.lines_join unbroken s.ends).imp (fun same => ?_) fun same => ?_
  · rw [← as_meant, ← same, text]
  · rw [← as_meant, ← same, text, effects, effects, List.map_append]
    rfl

/-- What a blank line does not contribute to is the same for both. -/
theorem filterMap_effects_lines {β : Type} {f : Effect → Option β} (silent : f .blank = none)
    (writable : ∀ l ∈ s.lines, l.row.effect.Writable) :
    (effects s.text.lines).filterMap f = s.meant.filterMap f := by
  rcases effects_lines writable with same | same
  · rw [same]
  · rw [← same, List.filterMap_append, List.filterMap_cons_none silent, List.filterMap_nil, List.append_nil]

end Sheet

/-! ## Reading back -/

section ReadBack

variable (origin : Text) (writable : ∀ l ∈ s.lines, l.row.effect.Writable)

include writable

theorem rules_ofLines_text :
    (Draft.ofLines origin s.text.lines).rules.reverse = s.meant.flatMap Effect.added := by
  rw [Draft.ofLines, Draft.rules_read, List.append_nil, List.reverse_reverse]
  rcases Sheet.effects_lines writable with same | same
  · rw [same]
  · rw [← same, List.flatMap_append]
    exact (List.append_nil _).symm

theorem bound_ofLines_text {n : Nat} (only : s.meant.filterMap Effect.bound? = [n]) :
    (Draft.ofLines origin s.text.lines).bound = n := by
  rw [Draft.ofLines, Draft.bound_read, Sheet.filterMap_effects_lines rfl writable, only]
  rfl

theorem alphabet_ofLines_text {letters : List Text} (only : s.meant.filterMap Effect.alphabet? = [letters]) :
    (Draft.ofLines origin s.text.lines).alphabet = some letters := by
  rw [Draft.ofLines, Draft.alphabet_read, Sheet.filterMap_effects_lines rfl writable, only]
  rfl

/-- No row is meant as a mistake, so there are no complaints. -/
theorem complaints_text (number : Nat) : complaints number s.text.lines = [] := by
  refine complaints_eq_nil (List.filterMap_eq_nil_iff.1 ?_) number
  rw [Sheet.filterMap_effects_lines rfl writable, List.filterMap_eq_nil_iff]
  exact List.forall_mem_map.2 fun l _ => l.row.problem?_effect

end ReadBack

/-! ## A plain layout -/

/-- A single space. -/
def Gap.space : Gap :=
  ⟨[' '], List.forall_mem_singleton.2 (by decide), List.forall_mem_singleton.2 (by decide)⟩

/-- A line that holds a row and nothing else. -/
def WrittenLine.ofRow (row : Row) : WrittenLine := ⟨.none, row, .none, none, by simp⟩

/-- A rule on a line of its own. -/
def Row.ofRule (r : Rule) : Row :=
  .rules r.left r.left_ne_nil .space ['-', '>'] List.mem_cons_self ⟨.space, r.right, r.right, .none, .inl rfl⟩ []

namespace Sheet

/-- **The plain sheet of a grammar**: the bound, the alphabet, and the rules one a line. -/
def plain (g : Grammar) : Sheet where
  lines :=
    .ofRow (.bound g.bound g.bound_pos .space .space) ::
    .ofRow (.alphabet (g.letters.map fun c => ⟨.none, c, .none⟩) .space .space) ::
    g.rules.map fun r => .ofRow (.ofRule r)
  ending := ['\n']
  ends := .inr ⟨'\n', rfl, rfl⟩

theorem meant_plain (g : Grammar) : (plain g).meant =
    .bound g.bound g.bound_pos :: .alphabet (g.letters.map ([·])) :: g.rules.map fun r => .rules [r] := by
  simp [meant, plain, WrittenLine.ofRow, Row.ofRule, Row.effect, Function.comp_def]

/-- It states the grammar. -/
theorem states_plain (lettered : Lettered g.terminals) : (plain g).States g := by
  have no_bound : (g.rules.map fun r => Effect.rules [r]).filterMap Effect.bound? = [] :=
    List.filterMap_eq_nil_iff.2 (List.forall_mem_map.2 fun _ _ => rfl)
  have no_alphabet : (g.rules.map fun r => Effect.rules [r]).filterMap Effect.alphabet? = [] :=
    List.filterMap_eq_nil_iff.2 (List.forall_mem_map.2 fun _ _ => rfl)
  have rules : (g.rules.map fun r => Effect.rules [r]).flatMap Effect.added = g.rules := by
    rw [List.flatMap_map]
    exact List.flatMap_singleton' g.rules
  refine ⟨?_, ⟨g.letters.map ([·]), ?_, fun t => ⟨fun mem => ?_, fun mem => ?_⟩⟩, ?_⟩
  · rw [meant_plain]
    exact congrArg (g.bound :: ·) no_bound
  · rw [meant_plain]
    exact congrArg (g.letters.map ([·]) :: ·) no_alphabet
  · obtain ⟨c, letter, rfl⟩ := List.mem_map.1 mem
    obtain ⟨t, terminal, mem⟩ := List.mem_flatten.1 letter
    obtain ⟨d, rfl, -⟩ := lettered t terminal
    rwa [List.mem_singleton.1 mem]
  · obtain ⟨c, rfl, -⟩ := lettered t mem
    exact List.mem_map_of_mem (List.mem_flatten.2 ⟨_, mem, List.mem_singleton_self c⟩)
  · rw [meant_plain]
    exact rules

end Sheet

/-- **Grammars that can be written are read back.** Every grammar that can be written has a sheet. And whatever sheet
states it, whatever the blanks, comments, line ends and spellings of the empty text on it, and whichever rules share
a line, what is read is the grammar, and there are no complaints. -/
theorem written_grammars_are_read_back (g : Grammar) (writable : Writable g) (origin : Text) :
    (Sheet.plain g).States g ∧ ∀ s : Sheet, s.States g →
      (Loaded.ofText s.text origin).grammar = g ∧ (Loaded.ofText s.text origin).diagnostics = [] := by
  refine ⟨Sheet.states_plain writable.lettered, fun s states => ?_⟩
  have rows := states.writable writable
  obtain ⟨letters, only, same⟩ := states.alphabet
  have rules := rules_ofLines_text origin rows
  have alphabet := alphabet_ofLines_text origin rows only
  rw [states.rules] at rules
  constructor
  · rw [Loaded.grammar_ofText]
    refine eq_of_parts (bound_ofLines_text origin rows states.bound) ?_ rules
    rw [Draft.grammar, alphabet, ← writable.normal]
    exact Text.withoutRepeats_sort_congr same
  · have some_rule : (Draft.ofLines origin s.text.lines).rules ≠ [] := by
      rw [← List.reverse_ne_nil_iff, rules]
      exact writable.some_rule
    rw [Loaded.diagnostics_ofText, complaints_text rows, lacking, alphabet, if_neg (by simp),
      if_neg some_rule]
    rfl

/-- A sheet with two rules on a line, an erasing one among them, a left side that ends in a minus sign right in front
of its arrow, a comment, an empty line and the alphabet at the end. -/
theorem written_grammars_are_read_back_laid_out :
    let tab : Gap := ⟨['\t'], List.forall_mem_singleton.2 (by decide), List.forall_mem_singleton.2 (by decide)⟩
    let rules : List Rule := [⟨['S'], ['a', 'S'], by decide⟩, ⟨['S'], [], by decide⟩,
      ⟨['a', ' ', '-'], ['>', '=', 'b'], by decide⟩]
    let g : Grammar := ⟨12, [['a'], ['b']], rules, by decide⟩
    let s : Sheet := {
      lines := [
        ⟨.space, .bound 12 (by decide) tab .none, .space, some ['n', '=', '3'], by simp [Text.isLineEnd]⟩,
        ⟨.none, .rules ['S'] (by decide) .space ['=', '>'] (by decide) ⟨tab, ['a', 'S'], ['a', 'S'], .none, .inl rfl⟩
          [⟨.space, [], ['ε'], .none, .inr ⟨rfl, by decide⟩⟩], .none, none, by simp⟩,
        ⟨.none, .blank, tab, none, by simp⟩,
        ⟨.none, .rules ['a', ' ', '-'] (by decide) .none ['-', '>'] (by decide)
          ⟨.none, ['>', '=', 'b'], ['>', '=', 'b'], .none, .inl rfl⟩ [], .none, none, by simp⟩,
        ⟨.none, .alphabet [⟨.none, 'b', .none⟩, ⟨.space, 'a', tab⟩] .space .space, .none, none, by simp⟩]
      ending := ['\r', '\n']
      ends := .inl rfl }
    s.text = " n\t=12 #n=3\r\nS =>\taS| ε\r\n\t\r\na -->>=b\r\nL = \x7bb, a\t\x7d".toList ∧
      (Loaded.ofText s.text Loaded.nowhere).grammar = g ∧ (Loaded.ofText s.text Loaded.nowhere).diagnostics = [] := by
  intro tab rules g s
  have lettered : Lettered g.terminals := by
    intro t mem
    rcases List.mem_pair.1 mem with rfl | rfl
    · exact ⟨'a', rfl, by decide⟩
    · exact ⟨'b', rfl, by decide⟩
  have normal : normalTerminals g.terminals = g.terminals := by
    simp [normalTerminals, Text.sort, Text.withoutRepeats, List.mergeSort, g]
  have writable : Writable g := ⟨by decide, by decide, lettered, normal, by decide, by decide⟩
  have states : s.States g := ⟨by decide, ⟨[['b'], ['a']], by decide, fun t => by simp [g, or_comm]⟩, by decide⟩
  exact ⟨by decide, (written_grammars_are_read_back g writable Loaded.nowhere).2 s states⟩

end SemiThue.Grammar.Source
