/-
Explorations that leave nothing out and do nothing twice.

Whatever the strategy, a run that is not broken off leaves a trail of the same kind: the texts to be
taken up were taken up, each once, and each of them had every rule applied to it once. `Exhaustive`
says so about a trail. Counts and words are fixed by that up to their order, so any two exhaustive
trails agree, and each of their numbers is the number of pairs of a text and a rule with some property.
-/
import Mathlib.Algebra.Order.BigOperators.Group.List
import SemiThue.Proofs.Listening
import SemiThue.Proofs.Reach

set_option autoImplicit false

namespace SemiThue.Exploration

variable {σ τ : Type}

/-- How often the rules, applied to a text, get a verdict. -/
def Scope.yield (scope : Scope) (v : Verdict) (text : Text) : Nat :=
  (outputs v (scope.applications text)).length

/-- How often the rules, applied to a text, give a certain word. -/
def Scope.yieldOf (scope : Scope) (word text : Text) : Nat :=
  (outputs .word (scope.applications text)).count word

/-- Counting an application takes it from what is ahead into the tally. -/
theorem Tally.ofVerdict_count_add (tally : Tally) (a : Application) (ahead : List Application)
    (v : Verdict) : (tally.count a.verdict).ofVerdict v + (outputs v ahead).length =
      tally.ofVerdict v + (outputs v (a :: ahead)).length := by
  rw [ofVerdict_count, outputs_cons, List.length_append]
  by_cases hv : a.verdict = v
  · rw [if_pos hv, if_pos hv, List.length_singleton, Nat.add_assoc]
  · rw [if_neg hv, if_neg hv, List.length_nil, Nat.zero_add, Nat.add_zero]

/-- **Nothing is left out and nothing is done twice.** -/
structure Exhaustive (scope : Scope) (start : Text) (trail : Trail (Heard σ)) : Prop where
  /-- No text was taken up twice. -/
  nodup : trail.taken.Nodup
  /-- The texts that were taken up are those to be taken up. -/
  mem_taken : ∀ t, t ∈ trail.taken ↔ scope.Reach start t
  /-- Every application was counted once. -/
  tally : ∀ v, trail.tally.ofVerdict v = Measure.total (scope.yield v) trail.taken
  /-- Every word was told as often as it was made. -/
  told : ∀ word, trail.told.count word = Measure.total (scope.yieldOf word) trail.taken

/-- Where every text to be taken up was, as often as may be, and every word was told as often as it was
made, the words told are those that some text to be taken up gives. -/
theorem Scope.mem_told_iff {scope : Scope} {start : Text} {trail : Trail (Heard σ)}
    (taken : ∀ t, t ∈ trail.taken ↔ scope.Reach start t)
    (told : ∀ word, trail.told.count word = Measure.total (scope.yieldOf word) trail.taken)
    {word : Text} : word ∈ trail.told ↔
      ∃ t, scope.Reach start t ∧ word ∈ outputs .word (scope.applications t) := by
  rw [← List.count_pos_iff, told, total_pos_iff]
  simp only [taken, Scope.yieldOf, List.count_pos_iff]

namespace Exhaustive

variable {scope : Scope} {start : Text} {trail : Trail (Heard σ)} {trail' : Trail (Heard τ)}

/-! ## Two exhaustive trails -/

theorem taken_perm (h : Exhaustive scope start trail) (h' : Exhaustive scope start trail') :
    trail.taken.Perm trail'.taken := by
  rw [List.perm_ext_iff_of_nodup h.nodup h'.nodup]
  intro t
  rw [h.mem_taken, h'.mem_taken]

theorem ofVerdict_eq (h : Exhaustive scope start trail) (h' : Exhaustive scope start trail')
    (v : Verdict) : trail.tally.ofVerdict v = trail'.tally.ofVerdict v := by
  rw [h.tally, h'.tally, total_perm (h.taken_perm h')]

theorem told_perm (h : Exhaustive scope start trail) (h' : Exhaustive scope start trail') :
    trail.told.Perm trail'.told := by
  rw [List.perm_iff_count]
  intro word
  rw [h.told, h'.told, total_perm (h.taken_perm h')]

/-- What was told on an exploration that took up only some of the texts, none of them twice, is
contained in what an exhaustive one tells. -/
theorem subperm_told (h : Exhaustive scope start trail) {taken told : List Text} (hn : taken.Nodup)
    (hm : ∀ t ∈ taken, scope.Reach start t)
    (ht : ∀ word, told.count word ≤ Measure.total (scope.yieldOf word) taken) :
    told.Subperm trail.told := by
  have hs : taken.Subperm trail.taken :=
    List.subperm_of_subset hn fun t ht => (h.mem_taken t).2 (hm t ht)
  obtain ⟨l, hl, hsub⟩ := hs
  -- the library counts with the equality test that comes from deciding equality
  have beq : (instBEqOfDecidableEq : BEq Text) = List.instBEq := lawful_beq_subsingleton _ _
  rw [List.subperm_iff_count, beq]
  intro word
  calc told.count word ≤ Measure.total (scope.yieldOf word) taken := ht word
    _ = Measure.total (scope.yieldOf word) l := total_perm hl.symm
    _ ≤ Measure.total (scope.yieldOf word) trail.taken := by
        rw [total_eq_sum, total_eq_sum]
        exact List.Sublist.sum_le_sum (hsub.map _) fun _ _ => Nat.zero_le _
    _ = trail.told.count word := (h.told word).symm

/-! ## The numbers of an exhaustive trail -/

theorem finite_reach (h : Exhaustive scope start trail) : { t | scope.Reach start t }.Finite := by
  refine (List.finite_toSet trail.taken).subset fun t ht => ?_
  exact (h.mem_taken t).2 ht

/-- As many texts were taken up as there are to be taken up. -/
theorem length_taken (h : Exhaustive scope start trail) :
    trail.taken.length = { t | scope.Reach start t }.ncard := by
  have hset : { t | scope.Reach start t } = (trail.taken.toFinset : Set Text) := by
    ext t
    simp [h.mem_taken]
  rw [hset, Set.ncard_coe_finset, List.toFinset_card_of_nodup h.nodup]

/-- A verdict was given as often as there are pairs that get it. -/
theorem ofVerdict_eq_ncard (h : Exhaustive scope start trail) (v : Verdict)
    {P : Text → Rule → Prop} (hP : ∀ t r, (scope.apply t r).verdict = v ↔ P t r) :
    trail.tally.ofVerdict v = (scope.pairs start P).ncard := by
  have hy : ∀ t, scope.yield v t =
      scope.grammar.rules.countP fun r => (scope.apply t r).verdict = v := by
    intro t
    rw [Scope.yield, outputs, List.length_map, ← List.countP_eq_length_filter, Scope.applications,
      List.countP_map]
    rfl
  have hset : scope.pairs start P =
      scope.pairs start fun t r => decide ((scope.apply t r).verdict = v) = true := by
    ext x
    simp only [Scope.pairs, Set.mem_ofPred_eq, decide_eq_true_eq, hP]
  rw [h.tally, hset, Scope.ncard_pairs h.nodup h.mem_taken, funext hy]

/-- A word was told as often as there are pairs that give it. -/
theorem count_told_eq_ncard (h : Exhaustive scope start trail) (word : Text) :
    trail.told.count word =
      (scope.pairs start fun t r => scope.GivesWord t r ∧ r.rewrite t = word).ncard := by
  have hy : ∀ t, scope.yieldOf word t = scope.grammar.rules.countP fun r =>
      decide ((scope.apply t r).verdict = .word) && decide (r.rewrite t = word) := by
    intro t
    rw [Scope.yieldOf, outputs, List.count, List.countP_map, List.countP_filter, Scope.applications,
      List.countP_map]
    congr 1
    funext r
    simp only [Function.comp_apply, Scope.output_apply, beq_eq_decide]
    by_cases hv : (scope.apply t r).verdict = .word <;> by_cases hw : r.rewrite t = word <;>
      simp [hv, hw]
  have hset : (scope.pairs start fun t r => scope.GivesWord t r ∧ r.rewrite t = word) =
      scope.pairs start fun t r =>
        (decide ((scope.apply t r).verdict = .word) && decide (r.rewrite t = word)) = true := by
    ext x
    simp only [Scope.pairs, Set.mem_ofPred_eq, Bool.and_eq_true, decide_eq_true_eq,
      Scope.verdict_eq_word_iff]
  rw [h.told, hset, Scope.ncard_pairs h.nodup h.mem_taken, funext hy]

end Exhaustive

end SemiThue.Exploration
