/-
What becomes of the lines of a grammar file.

A draft is read line by line, and each line changes it by its effect (`follows_take`): rules are added behind the
others, a setting takes the place of an earlier one, a mistake is complained about, and whatever a line does not
speak of stays as it was. So what a draft holds in the end can be said from the lines alone, and one line after the
other: reading the lines of a file is reading some of them and then the others (`read_append`).

The grammar that is built in the end meets what the constructors of rules and grammars ask for, and nothing is
refused on the way. That is why there is always a grammar, whatever the file holds.
-/
import SemiThue.Grammar.Source.Loaded
import SemiThue.Proofs.Grammar.Meaning

set_option autoImplicit false

namespace SemiThue.Grammar.Source

variable {origin content : Text} {number : Nat} {d d' : Draft} {e : Effect}

/-! ## One line -/

namespace Draft

/-- **A draft after a line**, told from the draft before it and the effect of the line. Nothing is said of the
journal. -/
def Follows (number : Nat) (content : Text) (d d' : Draft) : Effect → Prop
  | .blank => d' = d
  | .rules added => d' = { d with rules := added.reverse ++ d.rules, journal := d'.journal }
  | .bound n pos => d' = { d with bound := n, bound_pos := pos }
  | .alphabet letters => d' = { d with alphabet := some letters }
  | .mistake problem =>
    d' = { d with diagnostics := .ofLine number problem content :: d.diagnostics, journal := d'.journal }

theorem foldl_addRule (added : List Rule) (d : Draft) : added.foldl addRule d =
    { d with rules := added.reverse ++ d.rules, journal := (added.foldl addRule d).journal } := by
  induction added generalizing d with
  | nil => rfl
  | cons r added ih =>
    rw [List.foldl_cons, ih]
    simp [addRule]

/-- **The effect of a line is what happens to the draft.** -/
theorem follows_take (origin : Text) (number : Nat) (content : Text) (d : Draft) (e : Effect) :
    Follows number content d (d.take origin number content e) e := by
  cases e with
  | rules added => exact foldl_addRule added d
  | _ => rfl

end Draft

/-! ## What lines contribute -/

namespace Effect

/-- The rules that an effect adds. -/
def added : Effect → List Rule
  | .rules added => added
  | _ => []

/-- The bound that an effect sets. -/
def bound? : Effect → Option Nat
  | .bound n _ => some n
  | _ => none

/-- The alphabet that an effect sets. -/
def alphabet? : Effect → Option (List Text)
  | .alphabet letters => some letters
  | _ => none

/-- The mistake that an effect is. -/
def problem? : Effect → Option Problem
  | .mistake problem => some problem
  | _ => none

end Effect

/-- The effects of lines. -/
def effects (lines : List Text) : List Effect := lines.map fun raw => Line.effect (Line.content raw)

/-- **The complaints about lines**, the first of which has the given number. -/
def complaints (number : Nat) (lines : List Text) : List Diagnostic :=
  (lines.zipIdx number).filterMap fun (raw, n) =>
    (Line.effect (Line.content raw)).problem?.map fun problem => .ofLine n problem (Line.content raw)

theorem effects_cons (raw : Text) (lines : List Text) :
    effects (raw :: lines) = Line.effect (Line.content raw) :: effects lines := rfl

theorem complaints_cons (number : Nat) (raw : Text) (lines : List Text) : complaints number (raw :: lines) =
    ((Line.effect (Line.content raw)).problem?.map fun problem =>
      .ofLine number problem (Line.content raw)).toList ++ complaints (number + 1) lines := by
  rw [complaints, List.zipIdx_cons, List.filterMap_cons, ← complaints]
  dsimp only
  cases (Line.effect (Line.content raw)).problem? <;> rfl

/-- Without mistakes there are no complaints. -/
theorem complaints_eq_nil {lines : List Text} (fine : ∀ e ∈ effects lines, e.problem? = none) (number : Nat) :
    complaints number lines = [] := by
  induction lines generalizing number with
  | nil => rfl
  | cons raw lines ih =>
    rw [complaints_cons, fine _ List.mem_cons_self, ih fun e mem => fine e (List.mem_cons_of_mem _ mem)]
    rfl

namespace Draft

theorem rules_take : (d.take origin number content e).rules = e.added.reverse ++ d.rules := by
  cases e with
  | rules added => rw [take, foldl_addRule]; rfl
  | _ => rfl

theorem bound_take : (d.take origin number content e).bound = e.bound?.getD d.bound := by
  cases e with
  | rules added => rw [take, foldl_addRule]; rfl
  | _ => rfl

theorem alphabet_take : (d.take origin number content e).alphabet = e.alphabet?.or d.alphabet := by
  cases e with
  | rules added => rw [take, foldl_addRule]; rfl
  | _ => rfl

theorem diagnostics_take : (d.take origin number content e).diagnostics =
    (e.problem?.map fun problem => .ofLine number problem content).toList ++ d.diagnostics := by
  cases e with
  | rules added => rw [take, foldl_addRule]; rfl
  | _ => rfl

/-! ## Many lines -/

theorem read_cons (raw : Text) (others : List Text) : read origin number d (raw :: others) =
    read origin (number + 1) (d.take origin number (Line.content raw) (Line.effect (Line.content raw))) others :=
  rfl

/-- **Reading goes on where it stopped.** -/
theorem read_append (above below : List Text) : read origin number d (above ++ below) =
    read origin (number + above.length) (read origin number d above) below := by
  induction above generalizing number d with
  | nil => rfl
  | cons raw above ih =>
    rw [List.cons_append, read_cons, ih, ← read_cons, List.length_cons, Nat.add_assoc, Nat.add_comm 1]

/-- **The rules of all lines**, in order. -/
theorem rules_read (lines : List Text) :
    (read origin number d lines).rules = ((effects lines).flatMap Effect.added).reverse ++ d.rules := by
  induction lines generalizing number d with
  | nil => rfl
  | cons raw lines ih =>
    rw [read_cons, ih, rules_take, effects_cons, List.flatMap_cons, List.reverse_append, List.append_assoc]

/-- **The bound of the last line that sets it.** -/
theorem bound_read (lines : List Text) : (read origin number d lines).bound =
    ((effects lines).filterMap Effect.bound?).getLast?.getD d.bound := by
  induction lines generalizing number d with
  | nil => rfl
  | cons raw lines ih =>
    rw [read_cons, ih, bound_take, effects_cons, List.filterMap_cons]
    cases (Line.effect (Line.content raw)).bound? with
    | none => rfl
    | some n => rw [List.getLast?_cons]; rfl

/-- **The alphabet of the last line that sets it.** -/
theorem alphabet_read (lines : List Text) : (read origin number d lines).alphabet =
    ((effects lines).filterMap Effect.alphabet?).getLast?.or d.alphabet := by
  induction lines generalizing number d with
  | nil => rfl
  | cons raw lines ih =>
    rw [read_cons, ih, alphabet_take, effects_cons, List.filterMap_cons]
    cases (Line.effect (Line.content raw)).alphabet? with
    | none => rfl
    | some letters =>
      rw [List.getLast?_cons]
      cases ((effects lines).filterMap Effect.alphabet?).getLast? <;> rfl

/-- **The complaints about all lines**, in order. -/
theorem diagnostics_read (lines : List Text) : (read origin number d lines).diagnostics =
    (complaints number lines).reverse ++ d.diagnostics := by
  induction lines generalizing number d with
  | nil => rfl
  | cons raw lines ih =>
    rw [read_cons, ih, diagnostics_take, complaints_cons, List.reverse_append, List.append_assoc]
    cases (Line.effect (Line.content raw)).problem? <;> rfl

end Draft

/-! ## Whole files -/

/-- What is missing in a file, by what its draft holds. -/
def lacking (d : Draft) : List Diagnostic :=
  (if d.alphabet = none then [.ofFile .noAlphabet] else []) ++ if d.rules = [] then [.ofFile .noRules] else []

namespace Draft

theorem finish_eq (d : Draft) (origin : Text) : d.finish origin =
    { d with diagnostics := (lacking d).reverse ++ d.diagnostics, journal := (d.finish origin).journal } := by
  obtain ⟨bound, bound_pos, alphabet, rules, diagnostics, journal⟩ := d
  cases alphabet <;> cases rules <;> rfl

theorem defaultBound_pos : 0 < defaultBound := by decide

/-- The draft of a file when the given lines of it have been read. -/
def ofLines (origin : Text) (lines : List Text) : Draft := read origin 1 { bound_pos := defaultBound_pos } lines

theorem ofLines_concat (origin : Text) (above : List Text) (raw : Text) : ofLines origin (above ++ [raw]) =
    (ofLines origin above).take origin (above.length + 1) (Line.content raw) (Line.effect (Line.content raw)) := by
  rw [ofLines, read_append, Nat.add_comm]
  rfl

theorem diagnostics_ofLines (origin : Text) (lines : List Text) :
    (ofLines origin lines).diagnostics.reverse = complaints 1 lines := by
  rw [ofLines, diagnostics_read, List.append_nil, List.reverse_reverse]

/-- **No grammar is refused** that a draft stands for. -/
theorem make_grammar (d : Draft) :
    Grammar.make d.bound (d.alphabet.getD []) d.rules.reverse = .ok d.grammar := by
  have pos := d.bound_pos
  simp [Grammar.make, grammar, Nat.ne_of_gt pos]

end Draft

theorem eq_of_parts {g g' : Grammar} (bound : g.bound = g'.bound) (terminals : g.terminals = g'.terminals)
    (rules : g.rules = g'.rules) : g = g' := by
  cases g
  cases g'
  cases bound
  cases terminals
  cases rules
  rfl

namespace Loaded

variable (source origin : Text)

theorem grammar_ofText :
    (ofText source origin).grammar = (Draft.ofLines origin source.lines).grammar := by
  simp only [ofText]
  rw [Draft.finish_eq]
  rfl

theorem diagnostics_ofText : (ofText source origin).diagnostics =
    complaints 1 source.lines ++ lacking (Draft.ofLines origin source.lines) := by
  simp only [ofText]
  rw [Draft.finish_eq, List.reverse_append, List.reverse_reverse, ← Draft.ofLines, Draft.diagnostics_ofLines]

theorem rules_ofText :
    (ofText source origin).grammar.rules = (effects source.lines).flatMap Effect.added := by
  rw [grammar_ofText, Draft.grammar, Draft.ofLines, Draft.rules_read, List.append_nil, List.reverse_reverse]

theorem bound_ofText : (ofText source origin).grammar.bound =
    ((effects source.lines).filterMap Effect.bound?).getLast?.getD defaultBound := by
  rw [grammar_ofText]
  exact Draft.bound_read source.lines

theorem terminals_ofText : (ofText source origin).grammar.terminals =
    normalTerminals (((effects source.lines).filterMap Effect.alphabet?).getLast?.getD []) := by
  rw [grammar_ofText, Draft.grammar, Draft.ofLines, Draft.alphabet_read, Option.or_none]

/-- What a text lacks, by what its lines contribute. -/
theorem lacking_ofLines : lacking (Draft.ofLines origin source.lines) =
    (if ((effects source.lines).filterMap Effect.alphabet?).getLast? = none then [.ofFile .noAlphabet] else []) ++
      if (effects source.lines).flatMap Effect.added = [] then [.ofFile .noRules] else [] := by
  rw [lacking, Draft.ofLines, Draft.alphabet_read, Option.or_none, Draft.rules_read, List.append_nil]
  simp only [List.reverse_eq_nil_iff]

/-- **What is read is settled by the lines**; where they come from is for the journal only. -/
theorem grammar_ofText_congr {other : Text} (same : other.lines = source.lines) (origin' : Text) :
    (ofText other origin').grammar = (ofText source origin).grammar := by
  refine eq_of_parts ?_ ?_ ?_
  · rw [bound_ofText, bound_ofText, same]
  · rw [terminals_ofText, terminals_ofText, same]
  · rw [rules_ofText, rules_ofText, same]

theorem diagnostics_ofText_congr {other : Text} (same : other.lines = source.lines) (origin' : Text) :
    (ofText other origin').diagnostics = (ofText source origin).diagnostics := by
  rw [diagnostics_ofText, diagnostics_ofText, lacking_ofLines, lacking_ofLines, same]

end Loaded

/-! ## Meanings of lines -/

theorem exists_means_of_effect {lines : List Text} (mem : e ∈ effects lines) (not_blank : e ≠ .blank) :
    ∃ raw ∈ lines, Line.Means (Line.content raw) e := by
  obtain ⟨raw, found, rfl⟩ := List.mem_map.1 mem
  refine ⟨raw, found, Line.means_iff.2 ⟨fun nothing => not_blank ?_, rfl⟩⟩
  rw [nothing]
  rfl

theorem effect_mem_of_means {lines : List Text} {raw : Text} (mem : raw ∈ lines)
    (means : Line.Means (Line.content raw) e) : e ∈ effects lines :=
  List.mem_map.2 ⟨raw, mem, means.effect_eq⟩

/-- **An alphabet comes from a line.** -/
theorem exists_means_of_alphabet {lines letters : List Text}
    (given : (Draft.ofLines origin lines).alphabet = some letters) :
    ∃ raw ∈ lines, Line.Means (Line.content raw) (.alphabet letters) := by
  rw [Draft.ofLines, Draft.alphabet_read, Option.or_none] at given
  obtain ⟨e, mem, sets⟩ := List.mem_filterMap.1 (List.mem_of_getLast? given)
  cases e with
  | alphabet letters' =>
    cases sets
    exact exists_means_of_effect mem (by simp)
  | _ => cases sets

/-- **A rule comes from a line.** -/
theorem exists_means_of_rule {lines : List Text} {r : Rule} (given : r ∈ (Draft.ofLines origin lines).rules) :
    ∃ raw ∈ lines, ∃ added, Line.Means (Line.content raw) (.rules added) ∧ r ∈ added := by
  rw [Draft.ofLines, Draft.rules_read, List.append_nil, List.mem_reverse] at given
  obtain ⟨e, mem, adds⟩ := List.mem_flatMap.1 given
  cases e with
  | rules added =>
    obtain ⟨raw, line, means⟩ := exists_means_of_effect mem (by simp)
    exact ⟨raw, line, added, means, adds⟩
  | _ => cases adds

end SemiThue.Grammar.Source
