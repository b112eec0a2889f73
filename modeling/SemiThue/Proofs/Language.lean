/-
The language of a grammar, and the runs that stay within it.

Read as a semi-Thue system, a grammar rewrites one occurrence of a left side at a time, anywhere in the text
and in any order. An exploration is coarser: a rule is applied to all the occurrences that are found from
the left, at once. Nothing is gained by that. The text and the result are two joinings of the same pieces,
and one gets from the first to the second place by place, from the left: what stands before a place is final
by then, and what stands behind it is the rest of the text as it was, whatever the right side looks like and
however the left side overlaps with itself (`derives_join`). So whatever a run takes up or tells is derivable
in the plain sense.
-/
import Mathlib.Logic.Relation
import SemiThue.Proofs.Moments
import SemiThue.Proofs.Text.Replace

set_option autoImplicit false

namespace SemiThue

/-! ## Plain rewriting -/

namespace Grammar

variable {g : Grammar} {rule : Rule}

/-- **One step of plain rewriting**: one occurrence of the left side of some rule becomes its right
side. -/
inductive Produces (g : Grammar) : Text → Text → Prop where
  /-- The occurrence stands between any two texts. -/
  | at_occurrence {rule : Rule} (mem : rule ∈ g.rules) (before after : Text) :
      Produces g (before ++ rule.left ++ after) (before ++ rule.right ++ after)

/-- Finitely many steps of plain rewriting. -/
def Derives (g : Grammar) : Text → Text → Prop := Relation.ReflTransGen g.Produces

/-- **The language of a grammar** from a start: the derivable texts that consist of terminals. -/
def language (g : Grammar) (start : Text) : Set Text :=
  { word | g.Derives start word ∧ ∀ c ∈ word, [c] ∈ g.terminals }

/-- **Pieces joined by the left side of a rule derive the pieces joined by its right side.** The induction
is on the pieces; each step settles the leftmost place, and what was settled goes before the rest. -/
theorem derives_join (mem : rule ∈ g.rules) (before : Text) (pieces : List Text) :
    g.Derives (before ++ Text.join rule.left pieces) (before ++ Text.join rule.right pieces) := by
  induction pieces generalizing before with
  | nil => exact .refl
  | cons first others ih =>
    cases others with
    | nil =>
      rw [Text.join_singleton, Text.join_singleton]
      exact .refl
    | cons second others =>
      have leftmost : g.Produces (before ++ Text.join rule.left (first :: second :: others))
          (before ++ first ++ rule.right ++ Text.join rule.left (second :: others)) := by
        rw [Text.join_cons_cons, ← List.append_assoc, ← List.append_assoc]
        exact .at_occurrence mem (before ++ first) (Text.join rule.left (second :: others))
      have behind := ih (before ++ first ++ rule.right)
      rw [Text.join_cons_cons]
      simp only [List.append_assoc] at leftmost behind ⊢
      exact .head leftmost behind

/-- **What a rule makes of a text is derivable from it.** -/
theorem derives_rewrite (mem : rule ∈ g.rules) (text : Text) : g.Derives text (rule.rewrite text) := by
  have pieces := derives_join mem [] (text.cut rule.left)
  rwa [List.nil_append, List.nil_append, Text.join_cut rule.left_ne_nil, ← Text.replace_eq_join_cut]
    at pieces

end Grammar

namespace Exploration

/-! ## What a run takes up and tells -/

namespace Scope

variable {scope : Scope} {start t word : Text}

/-- What is to be taken up is derivable. -/
theorem Reach.derives (h : scope.Reach start t) : scope.grammar.Derives start t := by
  induction h with
  | start => exact .refl
  | step _ mem _ ih => exact ih.trans (Grammar.derives_rewrite mem _)

/-- What is made of it as a word belongs to the language. -/
theorem Reach.mem_language (h : scope.Reach start t) (gives : word ∈ outputs .word (scope.applications t)) :
    word ∈ scope.grammar.language start := by
  obtain ⟨rule, mem, ⟨-, -, -, terminal⟩, rfl⟩ := mem_word_iff.1 gives
  exact ⟨h.derives.trans (Grammar.derives_rewrite mem t), terminal⟩

end Scope

namespace Explorer

variable {σ : Type}

/-- **Runs stay within the language.** At every moment of a run, whatever the strategy, whoever moves and
whatever the listener answers, the texts taken up are derivable from the start by plain rewriting, and the
words told belong to the language of the grammar. So do the words told when the run has ended, completed
or not. -/
theorem runs_stay_within_language (e : Explorer) (listener : Listener σ) (start : Text) (journal : Journal)
    (heard : σ) :
    (∀ trail, e.Passes listener.overheard start journal ([], heard) trail →
      (∀ t ∈ trail.taken, e.scope.grammar.Derives start t) ∧
        ∀ word ∈ trail.told, word ∈ e.scope.grammar.language start) ∧
    ∀ ended, e.Ends listener.overheard start journal ([], heard) ended →
      ∀ call ∈ ended.heard.1, call.word ∈ e.scope.grammar.language start := by
  have told_within : ∀ trail, e.Passes listener.overheard start journal ([], heard) trail →
      ∀ word ∈ trail.told, word ∈ e.scope.grammar.language start := by
    intro trail passes word told
    obtain ⟨t, taken, gives⟩ := passes.exists_taken_of_mem_told told
    exact (passes.reach_of_mem_taken taken).mem_language gives
  refine ⟨fun trail passes => ⟨fun t taken => ?_, told_within trail passes⟩, fun ended run call made => ?_⟩
  · exact (passes.reach_of_mem_taken taken).derives
  · obtain ⟨trail, leaves⟩ := run.exists_leaves
    rw [leaves.heard_eq] at made
    exact told_within trail leaves.passes call.word (List.mem_map_of_mem made)

/-- An explorer with one worker. The left side of its first rule overlaps with itself and stands again in
the right side. -/
def overlapping : Explorer where
  scope :=
    { grammar :=
        { bound := 4
          terminals := [['a'], ['b']]
          rules := [⟨['S', 'S'], ['a', 'S', 'S', 'b'], List.cons_ne_nil _ _⟩, .ofChar 'S' []]
          bound_pos := Nat.succ_pos 3 }
      margin := 5 }
  strategy := .concurrent (.ofSucc 0 true)

/-- From five times `S` the first rule rewrites two places at once; what it makes is derivable all the same,
and the words `abab` and the empty one belong to the language. -/
theorem runs_stay_within_language_overlapping :
    let start : Text := ['S', 'S', 'S', 'S', 'S']
    let p := Pool.after (overlapping.plan (.ofSucc 0 true) Listener.taking.overheard start)
      (overlapping.openTrail start {} ([], ()))
      ([[.caller, .caller, .begin 0], List.replicate 17 (.work 0), [.begin 0],
        List.replicate 13 (.work 0), [.caller, .caller]].flatten)
    p.caller = .finished ∧
      overlapping.scope.grammar.Derives start ['a', 'S', 'S', 'b', 'a', 'S', 'S', 'b', 'S'] ∧
      p.shared.trail.told = [['a', 'b', 'a', 'b'], []] ∧
      ['a', 'b', 'a', 'b'] ∈ overlapping.scope.grammar.language start ∧
      ∀ call ∈ (overlapping.afterPool start p).heard.1, call.word ∈ overlapping.scope.grammar.language start := by
  intro start p
  have reachable : Pool.Reachable (overlapping.plan _ _ start) (overlapping.openTrail start {} ([], ())) p :=
    Pool.reachable_after _ _ _
  have finished : p.caller = .finished := by decide +kernel
  have taken : ['a', 'S', 'S', 'b', 'a', 'S', 'S', 'b', 'S'] ∈ p.shared.trail.taken := by decide +kernel
  have told : p.shared.trail.told = [['a', 'b', 'a', 'b'], []] := by decide +kernel
  clear_value p
  obtain ⟨moments, ends⟩ := runs_stay_within_language overlapping Listener.taking start {} ()
  obtain ⟨derives, within⟩ := moments p.shared.trail (.concurrent rfl reachable)
  refine ⟨finished, derives _ taken, told, within _ ?_, ends _ (.concurrent rfl reachable finished)⟩
  rw [told]
  exact List.mem_cons_self

end Explorer

end Exploration

end SemiThue
