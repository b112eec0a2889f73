/-
The claims of a sequential run.

A live text is claimed when it is come upon for the first time, and then it is put into the next generation.
Nothing else is put there, and every generation is taken up as a whole. So the number of claims is the
number of texts that were taken up or wait, apart from the start, which nobody claims.

A claim leaves no trace of its own in the trail. It is counted here where it is made: for each rule from the
state in which the rule is applied, and for a row of rules, for a text, a generation and a loop by adding up
(`Action.sum`). What is added up measures what the row does, whether it is gone through or broken off.
-/
import SemiThue.Proofs.Sequential.Termination

set_option autoImplicit false

namespace SemiThue

namespace Action

variable {α σ : Type}

/-- **What the actions of a row bring in together**, given what each of them brings in the state in which it
is performed. An action that ends in a fault is the last one. -/
def sum (f : α → Action σ) (gain : α → σ → Nat) : List α → σ → Nat
  | [], _ => 0
  | a :: l, s =>
    gain a s +
      match f a s with
      | (t, none) => sum f gain l t
      | (_, some _) => 0

/-- A measure to which each action adds its gain grows by their sum. -/
theorem measure_each {f : α → Action σ} {gain : α → σ → Nat} (μ : σ → Nat)
    (h : ∀ a s, μ (f a s).1 = μ s + gain a s) (l : List α) (s : σ) :
    μ (each f l s).1 = μ s + sum f gain l s := by
  induction l generalizing s with
  | nil => rfl
  | cons a l ih =>
    have ha := h a s
    cases hf : f a s with
    | mk t fault =>
      rw [hf] at ha
      simp only at ha
      cases fault with
      | none =>
        simp only [each_cons_of_none hf, sum, hf, ih]
        omega
      | some fault =>
        simp only [each_cons_of_some hf, sum, hf]
        omega

end Action

namespace Exploration.Sequential

variable {σ : Type} {scope : Scope} {listener : Listener σ} {start : Text} {trail : Trail σ}

/-! ## Counting claims -/

/-- One if a rule gives a live text that is claimed, and zero otherwise. -/
def claimsOfRule (scope : Scope) (text : Text) (rule : Rule) (s : State σ) : Nat :=
  if (scope.apply text rule).verdict = .live ∧ rule.rewrite text ∉ s.visited then 1 else 0

/-- How many texts are claimed while a text is taken up. -/
def claimsOfText (scope : Scope) (listener : Listener σ) (text : Text) (s : State σ) : Nat :=
  Action.sum (applyRule scope listener text) (claimsOfRule scope text) scope.grammar.rules
    { s with trail := s.trail.opened text }

/-- How many texts are claimed during a generation. -/
def claimsOfStage (scope : Scope) (listener : Listener σ) (number : Nat) (stage : List Text)
    (s : State σ) : Nat :=
  Action.sum (expand scope listener) (claimsOfText scope listener) stage
    { s with
      next := []
      trail := s.trail.noted .debug (heading number stage.length) }

/-- **How many texts were claimed** until the loop came by somewhere. It comes by there as `Reached` says. -/
inductive Claims (scope : Scope) (listener : Listener σ) (start : Text) (trail : Trail σ) :
    Loop σ → Nat → Prop where
  /-- The start is there without being claimed. -/
  | first : Claims scope listener start trail ⟨0, [start], .initial start trail⟩ 0
  /-- A generation adds what is claimed during it. -/
  | turn {l : Loop σ} {n : Nat} {s : State σ} : Claims scope listener start trail l n → l.stage ≠ [] →
      generation scope listener l.number l.stage l.state = (s, none) →
      Claims scope listener start trail ⟨l.number + 1, s.next.reverse, s⟩
        (n + claimsOfStage scope listener l.number l.stage l.state)

/-- Wherever the loop comes by, some number of texts was claimed. -/
theorem Reached.exists_claims {l : Loop σ} (reached : Reached scope listener start trail l) :
    ∃ n, Claims scope listener start trail l n := by
  induction reached with
  | first => exact ⟨0, .first⟩
  | turn _ some_text ended ih =>
    obtain ⟨n, claims⟩ := ih
    exact ⟨_, claims.turn some_text ended⟩

/-! ## What is claimed makes up the next generation -/

variable (scope listener)

/-- A text goes into the next generation exactly if it is claimed. -/
theorem length_next_applyRule (text : Text) (rule : Rule) (s : State σ) :
    (applyRule scope listener text rule s).1.next.length =
      s.next.length + claimsOfRule scope text rule s := by
  simp only [applyRule, claimsOfRule]
  cases (scope.apply text rule).verdict with
  | live =>
    by_cases known : rule.rewrite text ∈ s.visited
    · rw [if_neg fun h => h.2 known]
      simp only [State.claim, Scope.output_apply, Visited.claim?_eq_none_iff.2 known]
      rfl
    · rw [if_pos ⟨rfl, known⟩]
      simp only [State.claim, Scope.output_apply, Visited.claim?_eq_some_iff.2 ⟨known, rfl⟩,
        List.length_cons]
  | _ => rfl

theorem length_next_expand (text : Text) (s : State σ) :
    (expand scope listener text s).1.next.length =
      s.next.length + claimsOfText scope listener text s := by
  have rules := Action.measure_each (fun u : State σ => u.next.length)
    (length_next_applyRule scope listener text) scope.grammar.rules
    { s with trail := s.trail.opened text }
  rw [claimsOfText, ← rules]
  unfold expand
  split <;> rename_i heq <;> rw [heq]

/-- **The next generation is what is claimed during this one.** -/
theorem length_next_generation (number : Nat) (stage : List Text) (s : State σ) :
    (generation scope listener number stage s).1.next.length =
      claimsOfStage scope listener number stage s := by
  have texts := Action.measure_each (fun u : State σ => u.next.length)
    (length_next_expand scope listener) stage
    { s with next := [], trail := s.trail.noted .debug (heading number stage.length) }
  exact texts.trans (Nat.zero_add _)

variable {scope listener}

/-- **What was taken up and what waits was claimed, except for the start.** -/
theorem Claims.expanded_add_length (fresh : trail.taken = []) {l : Loop σ} {n : Nat}
    (claims : Claims scope listener start trail l n) :
    l.state.trail.expanded + l.stage.length = 1 + n := by
  induction claims with
  | first => simp [State.initial, Trail.expanded, fresh]
  | @turn l n s _ some_text ended ih =>
    have taken := taken_generation ended
    have next := length_next_generation scope listener l.number l.stage l.state
    rw [ended] at next
    simp only [Trail.expanded, taken, List.length_append, List.length_reverse, next] at ih ⊢
    omega

end Exploration.Sequential

end SemiThue
