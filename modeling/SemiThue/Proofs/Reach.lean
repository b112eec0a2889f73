/-
What there is to explore.

`Scope.Reach` is the set of texts that an exploration has to take up, put down without any strategy:
the start is one of them, whatever it looks like, and a rule leads from one of them to another if it
changes the text, stays within the limit, and leaves something to rewrite. The conditions are written
out here once more, in terms of characters and lengths, and then shown to be those under which a
result is judged live; likewise for words and for results that are dropped.

What an exploration has to report is a matter of pairs: a text to be taken up and a rule in its place
among the rules. `Scope.pairs` is the set of the pairs with a given property, and `ncard_pairs` counts
it text by text.
-/
import Mathlib.Data.Set.Card
import Mathlib.Algebra.BigOperators.Fin
import SemiThue.Exploration.Trail
import SemiThue.Measure

set_option autoImplicit false

namespace SemiThue

theorem Grammar.isWord_eq_true_iff {g : Grammar} {t : Text} :
    g.isWord t = true ↔ ∀ c ∈ t, [c] ∈ g.terminals := by
  simp [isWord, isTerminal]

theorem Grammar.isWord_eq_false_iff {g : Grammar} {t : Text} :
    g.isWord t = false ↔ ∃ c ∈ t, [c] ∉ g.terminals := by
  rw [← Bool.not_eq_true, isWord_eq_true_iff]
  simp only [not_forall, exists_prop]

/-- The rule that replaces one character. -/
def Rule.ofChar (c : Char) (right : Text) : Rule := ⟨[c], right, List.cons_ne_nil c []⟩

namespace Exploration

namespace Scope

variable {scope : Scope} {start text : Text} {rule : Rule}

/-- A rule makes a text of some other that is within the limit and still holds something to
rewrite. -/
def GivesLive (scope : Scope) (text : Text) (rule : Rule) : Prop :=
  rule.rewrite text ≠ text ∧
    ((rule.rewrite text).length : Int) ≤ scope.grammar.bound + scope.margin ∧
      ∃ c ∈ rule.rewrite text, [c] ∉ scope.grammar.terminals

/-- A rule makes a word of some other text: changed, within both bounds, and of terminals only. -/
def GivesWord (scope : Scope) (text : Text) (rule : Rule) : Prop :=
  rule.rewrite text ≠ text ∧ (rule.rewrite text).length ≤ scope.grammar.bound ∧
    ((rule.rewrite text).length : Int) ≤ scope.grammar.bound + scope.margin ∧
      ∀ c ∈ rule.rewrite text, [c] ∈ scope.grammar.terminals

/-- **The texts to be taken up** from a start. -/
inductive Reach (scope : Scope) (start : Text) : Text → Prop where
  /-- The start is taken up in any case. -/
  | start : Reach scope start start
  /-- A live result is taken up. -/
  | step {text : Text} {rule : Rule} : Reach scope start text → rule ∈ scope.grammar.rules →
      scope.GivesLive text rule → Reach scope start (rule.rewrite text)

/-! ## Verdicts in these terms -/

theorem verdict_eq_unchanged_iff :
    (scope.apply text rule).verdict = .unchanged ↔ rule.rewrite text = text :=
  Grammar.judge_eq_unchanged_iff

theorem verdict_eq_live_iff :
    (scope.apply text rule).verdict = .live ↔ scope.GivesLive text rule := by
  rw [GivesLive, ← Grammar.isWord_eq_false_iff]
  exact Grammar.judge_eq_live_iff

theorem verdict_eq_word_iff :
    (scope.apply text rule).verdict = .word ↔ scope.GivesWord text rule := by
  rw [GivesWord, ← Grammar.isWord_eq_true_iff]
  refine Grammar.judge_eq_word_iff.trans ?_
  constructor
  · rintro ⟨changed, limit, word, bound⟩
    exact ⟨changed, bound, limit, word⟩
  · rintro ⟨changed, bound, limit, word⟩
    exact ⟨changed, limit, word, bound⟩

/-- A result is dropped if it is of no use in any other way. -/
theorem verdict_eq_dropped_iff :
    (scope.apply text rule).verdict = .dropped ↔
      rule.rewrite text ≠ text ∧ ¬scope.GivesWord text rule ∧ ¬scope.GivesLive text rule := by
  rw [← verdict_eq_word_iff, ← verdict_eq_live_iff, Ne, ← @verdict_eq_unchanged_iff scope text rule]
  cases (scope.apply text rule).verdict <;> simp

/-! ## Applications of all rules to one text -/

/-- The applications of all rules to a text, in order. -/
def applications (scope : Scope) (text : Text) : List Application :=
  scope.grammar.rules.map (scope.apply text)

theorem mem_applications {a : Application} :
    a ∈ scope.applications text ↔ ∃ rule ∈ scope.grammar.rules, scope.apply text rule = a :=
  List.mem_map

end Scope

/-- The results that got a given verdict. -/
def outputs (v : Verdict) (l : List Application) : List Text :=
  (l.filter fun a => a.verdict = v).map fun a => a.step.output

@[simp] theorem outputs_nil (v : Verdict) : outputs v [] = [] := rfl

theorem outputs_cons (v : Verdict) (a : Application) (l : List Application) :
    outputs v (a :: l) = (if a.verdict = v then [a.step.output] else []) ++ outputs v l := by
  unfold outputs
  rw [List.filter_cons]
  by_cases h : a.verdict = v <;> simp [h]

theorem mem_outputs {v : Verdict} {l : List Application} {t : Text} :
    t ∈ outputs v l ↔ ∃ a ∈ l, a.verdict = v ∧ a.step.output = t := by
  simp [outputs, and_assoc]

@[simp] theorem outputs_append (v : Verdict) (l l' : List Application) :
    outputs v (l ++ l') = outputs v l ++ outputs v l' := by
  simp [outputs]

theorem mem_outputs_flatMap {v : Verdict} {f : Text → List Application} {texts : List Text} {t : Text} :
    t ∈ outputs v (texts.flatMap f) ↔ ∃ s ∈ texts, t ∈ outputs v (f s) := by
  simp only [mem_outputs, List.mem_flatMap]
  constructor
  · rintro ⟨a, ⟨s, mem, applied⟩, given⟩
    exact ⟨s, mem, a, applied, given⟩
  · rintro ⟨s, mem, a, applied, given⟩
    exact ⟨a, ⟨s, mem, applied⟩, given⟩

namespace Scope

variable {scope : Scope} {start text : Text}

/-- A text gives what some rule makes of it, if that gets the right verdict. -/
theorem mem_outputs_applications {v : Verdict} {t : Text} : t ∈ outputs v (scope.applications text) ↔
    ∃ rule ∈ scope.grammar.rules, (scope.apply text rule).verdict = v ∧ rule.rewrite text = t := by
  simp [mem_outputs, mem_applications]

theorem mem_live_iff {t : Text} : t ∈ outputs .live (scope.applications text) ↔
    ∃ rule ∈ scope.grammar.rules, scope.GivesLive text rule ∧ rule.rewrite text = t := by
  simp only [mem_outputs_applications, verdict_eq_live_iff]

theorem mem_word_iff {word : Text} : word ∈ outputs .word (scope.applications text) ↔
    ∃ rule ∈ scope.grammar.rules, scope.GivesWord text rule ∧ rule.rewrite text = word := by
  simp only [mem_outputs_applications, verdict_eq_word_iff]

/-- Live results of texts to be taken up are to be taken up. -/
theorem Reach.of_mem_outputs (h : scope.Reach start text) {t : Text}
    (ht : t ∈ outputs .live (scope.applications text)) : scope.Reach start t := by
  obtain ⟨rule, mem, live, rfl⟩ := mem_live_iff.1 ht
  exact h.step mem live

/-- **Nothing is left out by a set** that holds the start and the live results of its members. -/
theorem Reach.mem_of_closed {P : Text → Prop} (hs : P start)
    (hc : ∀ s, P s → ∀ t ∈ outputs .live (scope.applications s), P t) {t : Text}
    (h : scope.Reach start t) : P t := by
  induction h with
  | start => exact hs
  | step _ hr hl ih => exact hc _ ih _ (mem_live_iff.2 ⟨_, hr, hl, rfl⟩)

/-! ## Counting pairs -/

/-- The pairs of a text to be taken up and a place among the rules that have a given property. -/
def pairs (scope : Scope) (start : Text) (P : Text → Rule → Prop) :
    Set (Text × Fin scope.grammar.rules.length) :=
  { x | scope.Reach start x.1 ∧ P x.1 scope.grammar.rules[x.2] }

end Scope

theorem total_eq_sum {α : Type} (f : α → Nat) (l : List α) : Measure.total f l = (l.map f).sum := by
  induction l with
  | nil => rfl
  | cons a l ih => rw [Measure.total_cons, ih, List.map_cons, List.sum_cons]

/-- A sum over a list does not depend on the order. -/
theorem total_perm {α : Type} {f : α → Nat} {l l' : List α} (h : l.Perm l') :
    Measure.total f l = Measure.total f l' := by
  rw [total_eq_sum, total_eq_sum]
  exact (h.map f).sum_eq

/-- A sum is positive exactly if some member contributes to it. -/
theorem total_pos_iff {α : Type} {f : α → Nat} {l : List α} :
    0 < Measure.total f l ↔ ∃ a ∈ l, 0 < f a := by
  induction l with
  | nil => simp
  | cons a l ih => rw [Measure.total_cons, Nat.add_pos_iff_pos_or_pos, ih, List.exists_mem_cons_iff]

theorem total_le_length {α : Type} {f : α → Nat} (h : ∀ a, f a ≤ 1) (l : List α) :
    Measure.total f l ≤ l.length := by
  induction l with
  | nil => exact Nat.le_refl 0
  | cons a l ih =>
    have ha := h a
    rw [Measure.total_cons, List.length_cons]
    omega

theorem total_ite_eq_countP {α : Type} (p : α → Bool) (l : List α) :
    Measure.total (fun a => if p a = true then 1 else 0) l = l.countP p := by
  induction l with
  | nil => rfl
  | cons a l ih => rw [Measure.total_cons, List.countP_cons, ih, Nat.add_comm]

/-- The places of a list whose members have a property are as many as there are such members. -/
theorem card_places_eq_countP {α : Type} (l : List α) (p : α → Bool) :
    (Finset.univ.filter fun i : Fin l.length => p l[i] = true).card = l.countP p := by
  rw [Finset.card_filter, ← total_ite_eq_countP, total_eq_sum]
  exact Fin.sum_univ_fun_getElem l fun a => if p a = true then 1 else 0

namespace Scope

variable {scope : Scope} {start : Text}

/-- **Pairs are counted text by text**, if the texts are listed without repetition. -/
theorem ncard_pairs {l : List Text} (hn : l.Nodup) (hl : ∀ t, t ∈ l ↔ scope.Reach start t)
    (p : Text → Rule → Bool) :
    (scope.pairs start fun t r => p t r = true).ncard =
      Measure.total (fun t => scope.grammar.rules.countP (p t)) l := by
  have h : scope.pairs start (fun t r => p t r = true) =
      ((l.toFinset ×ˢ Finset.univ).filter fun x => p x.1 scope.grammar.rules[x.2] = true :
        Finset (Text × Fin scope.grammar.rules.length)) := by
    ext x
    simp [pairs, hl]
  rw [h, Set.ncard_coe_finset, Finset.card_filter, Finset.sum_product,
    List.sum_toFinset _ hn, total_eq_sum]
  congr 1
  refine List.map_congr_left fun t _ => ?_
  rw [← card_places_eq_countP, Finset.card_filter]

/-- A scope with two texts to be taken up from `S`, which are `S` itself and `T`. The word `a` is given
three times, twice by `S` and once by `T`. -/
def converging : Scope where
  grammar :=
    { bound := 1
      terminals := [['a']]
      rules := [⟨['S'], ['T'], by decide⟩, ⟨['S'], ['a'], by decide⟩, ⟨['T'], ['a'], by decide⟩,
        ⟨['S'], ['a'], by decide⟩]
      bound_pos := by decide }
  margin := 0

/-- A scope in which `S` gives the word `a`, and `T`, which gives the word `b`. -/
def branching : Scope where
  grammar :=
    { bound := 1
      terminals := [['a'], ['b']]
      rules := [⟨['S'], ['T'], by decide⟩, ⟨['S'], ['a'], by decide⟩, ⟨['T'], ['b'], by decide⟩]
      bound_pos := by decide }
  margin := 0

end Scope

end Exploration

end SemiThue
