/-
Chains of changes, and how far a text is from the start.

That a text is to be taken up says nothing about how many rules it takes to get there. `Scope.Chain` counts
them: a chain of so many steps is made of rules that change the text at hand and lead to one that is within
the limit and holds something to rewrite. Texts are at the end of a chain exactly if they are to be taken up,
and the length of the shortest such chain is their distance from the start (`Scope.distance`). Distances are
those of a breadth-first search: no live result is more than one further away than what it was made of, and
every text but the start is a live result of some text that is nearer by one.

A word is given at the end of a chain by one change more, which need not lead to anything that can be gone
on from. Such derivations are not empty even if the word is the start itself (`Scope.DerivesIn`).
-/
import Mathlib.Order.Lattice.Nat
import SemiThue.Proofs.Reach

set_option autoImplicit false

namespace SemiThue

/-- Some rule makes the second text of the first one, and they differ. -/
def Grammar.Changes (g : Grammar) (s t : Text) : Prop := t ≠ s ∧ ∃ rule ∈ g.rules, rule.rewrite s = t

namespace Exploration.Scope

variable {scope : Scope} {start t u : Text} {k : Nat}

/-! ## Chains -/

/-- **Chains of so many changes**, each of which leads to a text within the limit that holds something to
rewrite. -/
inductive Chain (scope : Scope) (start : Text) : Nat → Text → Prop where
  /-- The start is there, whatever it looks like. -/
  | start : Chain scope start 0 start
  /-- A rule gives a live text of what the chain has led to. -/
  | step {k : Nat} {text : Text} {rule : Rule} : Chain scope start k text → rule ∈ scope.grammar.rules →
      scope.GivesLive text rule → Chain scope start (k + 1) (rule.rewrite text)

/-- **Derivations of so many steps, at least one**: a chain, and a change of what it has led to. -/
def DerivesIn (scope : Scope) (start : Text) : Nat → Text → Prop
  | 0, _ => False
  | k + 1, u => ∃ t, scope.Chain start k t ∧ scope.grammar.Changes t u

theorem Chain.of_mem_live (h : scope.Chain start k t)
    (live : u ∈ outputs .live (scope.applications t)) : scope.Chain start (k + 1) u := by
  obtain ⟨rule, mem, gives, rfl⟩ := mem_live_iff.1 live
  exact h.step mem gives

/-- The last step of a chain. -/
theorem Chain.exists_last (h : scope.Chain start (k + 1) u) :
    ∃ t, scope.Chain start k t ∧ u ∈ outputs .live (scope.applications t) := by
  cases h with
  | step before mem live => exact ⟨_, before, mem_live_iff.2 ⟨_, mem, live, rfl⟩⟩

theorem Chain.reach (h : scope.Chain start k t) : scope.Reach start t := by
  induction h with
  | start => exact .start
  | step _ mem live ih => exact ih.step mem live

theorem Reach.exists_chain (h : scope.Reach start t) : ∃ k, scope.Chain start k t := by
  induction h with
  | start => exact ⟨0, .start⟩
  | step _ mem live ih =>
    obtain ⟨k, chain⟩ := ih
    exact ⟨k + 1, chain.step mem live⟩

/-! ## Distances -/

/-- **How far a text is from the start**: the length of a shortest chain, if there is one. -/
noncomputable def distance (scope : Scope) (start t : Text) : Nat := sInf { k | scope.Chain start k t }

/-- There is a chain as long as the distance. -/
theorem Reach.chain_distance (h : scope.Reach start t) : scope.Chain start (scope.distance start t) t :=
  Nat.sInf_mem h.exists_chain

/-- No chain is shorter than the distance. -/
theorem Chain.distance_le (h : scope.Chain start k t) : scope.distance start t ≤ k := Nat.sInf_le h

@[simp] theorem distance_start : scope.distance start start = 0 :=
  Nat.le_zero.1 Chain.start.distance_le

/-- Nothing but the start is at distance 0. -/
theorem Reach.eq_start_of_distance_eq_zero (h : scope.Reach start t)
    (zero : scope.distance start t = 0) : t = start := by
  have chain := h.chain_distance
  rw [zero] at chain
  cases chain
  rfl

/-- **A live result is at most one further away** than what it was made of. -/
theorem Reach.distance_le_succ (h : scope.Reach start t)
    (live : u ∈ outputs .live (scope.applications t)) :
    scope.distance start u ≤ scope.distance start t + 1 :=
  (h.chain_distance.of_mem_live live).distance_le

/-- **What is not at distance 0 is a live result of some text that is nearer by one.** -/
theorem Reach.exists_nearer (h : scope.Reach start u) (away : scope.distance start u = k + 1) :
    ∃ t, scope.Reach start t ∧ scope.distance start t = k ∧
      u ∈ outputs .live (scope.applications t) := by
  have chain := h.chain_distance
  rw [away] at chain
  obtain ⟨t, before, live⟩ := chain.exists_last
  have near := before.distance_le
  have far := before.reach.distance_le_succ live
  exact ⟨t, before.reach, by omega, live⟩

end Exploration.Scope

end SemiThue
