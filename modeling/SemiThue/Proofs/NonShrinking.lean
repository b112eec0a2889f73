/-
Grammars whose rules make no text shorter.

An exploration gives up texts that are too long, and texts that hold nothing to rewrite. In general words
are lost by that: a text beyond the limit might be made short again. Not so if no right side is shorter than
its left side. Then everything on the way to a word is at most as long as the word, so within the bound, and
the margin does not matter as long as it is not negative. If moreover every left side holds a non-terminal,
nothing on the way is given up for want of something to rewrite, since a rule that changes a text finds its
left side there (`reach_of_changes`). So the words of such a grammar are all the words within the bound that
applications of rules can make of the start, whatever comes in between.
-/
import Mathlib.Logic.Relation
import SemiThue.Proofs.Chain
import SemiThue.Proofs.Runs
import SemiThue.Proofs.Text.Replace

set_option autoImplicit false

namespace SemiThue

open Relation (ReflTransGen TransGen)

namespace Rule

variable {rule : Rule} {text : Text}

/-- A rule that makes no text shorter. -/
theorem length_le_rewrite (lengthens : rule.left.length ≤ rule.right.length) (text : Text) :
    text.length ≤ (rule.rewrite text).length :=
  Text.length_le_replace rule.left_ne_nil lengthens text

/-- A text that a rule changes holds the characters of its left side. -/
theorem mem_of_rewrite_ne (changed : rule.rewrite text ≠ text) {c : Char} (mem : c ∈ rule.left) :
    c ∈ text :=
  (Text.infix_of_replace_ne rule.left_ne_nil changed).subset mem

end Rule

namespace Grammar

/-- **The rules rewrite non-terminals, and make no text shorter.** -/
structure NonShrinking (g : Grammar) : Prop where
  /-- There is a non-terminal on the left of every rule. -/
  rewrites : ∀ rule ∈ g.rules, ∃ c ∈ rule.left, [c] ∉ g.terminals
  /-- The right side of a rule is at least as long as the left one. -/
  lengthens : ∀ rule ∈ g.rules, rule.left.length ≤ rule.right.length

variable {g : Grammar} {s t : Text}

theorem NonShrinking.length_le (h : g.NonShrinking) (changes : g.Changes s t) : s.length ≤ t.length := by
  obtain ⟨-, rule, mem, rfl⟩ := changes
  exact Rule.length_le_rewrite (h.lengthens rule mem) s

/-- What is changed by a rule holds a non-terminal. -/
theorem NonShrinking.exists_nonterminal (h : g.NonShrinking) (changes : g.Changes s t) :
    ∃ c ∈ s, [c] ∉ g.terminals := by
  obtain ⟨changed, rule, mem, rfl⟩ := changes
  obtain ⟨c, left, rewritable⟩ := h.rewrites rule mem
  exact ⟨c, Rule.mem_of_rewrite_ne changed left, rewritable⟩

end Grammar

namespace Exploration

namespace Scope

variable {scope : Scope} {start s t word : Text}

/-- What is to be taken up is made of the start by changes. -/
theorem Reach.changes (h : scope.Reach start t) : ReflTransGen scope.grammar.Changes start t := by
  induction h with
  | start => exact .refl
  | step _ mem live ih => exact ih.tail ⟨live.1, _, mem, rfl⟩

/-- **Whatever changes make of the start on the way to a text within the bound is to be taken up.** The
induction is on the changes before; the next one, of which the result is within the bound, shows that there
is something to rewrite. -/
theorem reach_of_changes (nonShrinking : scope.grammar.NonShrinking) (margin : 0 ≤ scope.margin)
    (changes : ReflTransGen scope.grammar.Changes start s) (next : scope.grammar.Changes s t)
    (within : t.length ≤ scope.grammar.bound) : scope.Reach start s := by
  induction changes generalizing t with
  | refl => exact .start
  | @tail r s _ last ih =>
    have shorter : s.length ≤ scope.grammar.bound := (nonShrinking.length_le next).trans within
    have rewritable := nonShrinking.exists_nonterminal next
    have reach := ih last shorter
    obtain ⟨changed, rule, mem, rfl⟩ := last
    exact reach.step mem ⟨changed, by omega, rewritable⟩

/-- **Words within the bound that changes make of the start are given by some text to be taken up**, and
no others are. -/
theorem exists_gives_word_iff (nonShrinking : scope.grammar.NonShrinking) (margin : 0 ≤ scope.margin) :
    (∃ t, scope.Reach start t ∧ word ∈ outputs .word (scope.applications t)) ↔
      TransGen scope.grammar.Changes start word ∧ word.length ≤ scope.grammar.bound ∧
        ∀ c ∈ word, [c] ∈ scope.grammar.terminals := by
  constructor
  · rintro ⟨t, reach, gives⟩
    obtain ⟨rule, mem, ⟨changed, within, -, terminal⟩, rfl⟩ := mem_word_iff.1 gives
    exact ⟨.tail' reach.changes ⟨changed, rule, mem, rfl⟩, within, terminal⟩
  · rintro ⟨changes, within, terminal⟩
    obtain ⟨t, before, last⟩ := Relation.TransGen.tail'_iff.1 changes
    have reach := reach_of_changes nonShrinking margin before last within
    obtain ⟨changed, rule, mem, rfl⟩ := last
    exact ⟨t, reach, mem_word_iff.2 ⟨rule, mem, ⟨changed, within, by omega, terminal⟩, rfl⟩⟩

end Scope

namespace Explorer

variable {σ : Type}

/-- **Runs over a grammar that makes no text shorter tell all there is.** Let no call of a run be refused,
whatever its strategy and whoever moves, and let the margin not be negative. The run is completed, and the
words told are the texts of terminals, within the bound, that one or more changes make of the start, however
long and however many the texts in between. They are the same for any other such margin. -/
theorem told_iff_changes {e : Explorer} (nonShrinking : e.scope.grammar.NonShrinking)
    (margin : 0 ≤ e.scope.margin) {listener : Listener σ} {start : Text} {journal : Journal} {heard : σ}
    {ended : Ended (Heard σ)} (run : e.Ends listener.overheard start journal ([], heard) ended)
    (answered : ∀ call ∈ ended.heard.1, call.fault = none) :
    ended.Completed ∧
      (∀ word, word ∈ ended.heard.1.map Call.word ↔
        TransGen e.scope.grammar.Changes start word ∧ word.length ≤ e.scope.grammar.bound ∧
          ∀ c ∈ word, [c] ∈ e.scope.grammar.terminals) ∧
      ∀ {τ : Type} {e' : Explorer} {listener' : Listener τ} {journal' : Journal} {heard' : τ}
        {ended' : Ended (Heard τ)}, e'.scope.grammar = e.scope.grammar → 0 ≤ e'.scope.margin →
        e'.Ends listener'.overheard start journal' ([], heard') ended' →
        (∀ call ∈ ended'.heard.1, call.fault = none) →
        ∀ word, word ∈ ended'.heard.1.map Call.word ↔ word ∈ ended.heard.1.map Call.word := by
  have completed := run.completed_iff.2 answered
  have told : ∀ word, word ∈ ended.heard.1.map Call.word ↔
      TransGen e.scope.grammar.Changes start word ∧ word.length ≤ e.scope.grammar.bound ∧
        ∀ c ∈ word, [c] ∈ e.scope.grammar.terminals := fun word =>
    (run.mem_told_iff completed).trans (Scope.exists_gives_word_iff nonShrinking margin)
  refine ⟨completed, told, ?_⟩
  intro τ e' listener' journal' heard' ended' same margin' run' answered' word
  rw [run'.mem_told_iff (run'.completed_iff.2 answered'),
    Scope.exists_gives_word_iff (same ▸ nonShrinking) margin', same, told]

/-- An explorer with two workers over the grammar of as many `a` as `b` after them. -/
def balanced : Explorer where
  scope :=
    { grammar :=
        { bound := 4
          terminals := [['a'], ['b']]
          rules := [.ofChar 'S' ['a', 'S', 'b'], .ofChar 'S' ['a', 'b']]
          bound_pos := by decide }
      margin := 0 }
  strategy := .concurrent (.ofSucc 1 true)

/-- With margin 0 two workers tell `ab` and `aabb`. Changes lead to both, and a sequential run with another
margin tells them too. -/
theorem told_iff_changes_balanced :
    let p := Pool.after (balanced.plan (.ofSucc 1 true) Listener.taking.overheard ['S'])
      (balanced.openTrail ['S'] {} ([], ()))
      ([[.caller, .caller, .begin 0], List.replicate 10 (.work 0), [.begin 0],
        (List.replicate 7 [.work 1, .work 0]).flatten, List.replicate 6 (.work 0),
        [.caller, .caller]].flatten)
    let ended := balanced.afterPool ['S'] p
    let e' : Explorer := { scope := { balanced.scope with margin := 3 }, strategy := .sequential }
    let ended' := e'.run Listener.taking.overheard ['S'] {} ([], ())
    balanced.scope.grammar.NonShrinking ∧ p.caller = .finished ∧
      ended.heard.1.map Call.word = [['a', 'a', 'b', 'b'], ['a', 'b']] ∧
      TransGen balanced.scope.grammar.Changes ['S'] ['a', 'a', 'b', 'b'] ∧
      ∀ word, word ∈ ended'.heard.1.map Call.word ↔ word ∈ ended.heard.1.map Call.word := by
  intro p ended e' ended'
  have nonShrinking : balanced.scope.grammar.NonShrinking := by
    refine ⟨fun rule mem => ⟨'S', ?_, by decide⟩, by decide⟩
    revert rule mem
    decide
  have reachable : Pool.Reachable (balanced.plan _ _ ['S']) (balanced.openTrail ['S'] {} ([], ())) p :=
    Pool.reachable_after _ _ _
  have finished : p.caller = .finished := by decide +kernel
  have told : p.shared.trail.heard.1.map Call.word = [['a', 'a', 'b', 'b'], ['a', 'b']] := by
    decide +kernel
  have answered : ∀ call ∈ p.shared.trail.heard.1, call.fault = none := by decide +kernel
  clear_value p
  rw [← balanced.heard_afterPool ['S'] p] at told answered
  obtain ⟨-, changes, same⟩ := told_iff_changes nonShrinking (Int.le_refl 0)
    (.concurrent rfl reachable finished) answered
  have run' := e'.ends_run Listener.taking.overheard ['S'] {} ([], ())
  have completed' : ended'.Completed := completed_run_of_sequential rfl Listener.assents_taking _ _ _
  have grammar' : e'.scope.grammar = balanced.scope.grammar := rfl
  have margin' : 0 ≤ e'.scope.margin := by decide
  refine ⟨nonShrinking, finished, told, ?_,
    same grammar' margin' run' (run'.completed_iff.1 completed')⟩
  refine ((changes _).1 ?_).1
  rw [told]
  exact List.mem_cons_self

end Explorer

end Exploration

end SemiThue
