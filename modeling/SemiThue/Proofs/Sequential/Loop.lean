/-
The loop of the sequential strategy, turn by turn and moment by moment.

What a sequential run comes to is computed at one go. Some questions are about the way there: whether the
loop ends, and what was to be seen while it was going on. So the way is put down here once more, as a
relation. `Reached` follows the loop from one generation to the next, without regard to the argument by
which it is known to end; `exists_ends_run` says that the outcome of the run is the end of that way.

Between two generations there is much to be seen: a text is opened, a rule is applied to it and the result
counted, recorded and announced, a word is told or a live text claimed. `Passes` holds of every state in
between. It is built like the loop itself, from one rule to one text, one generation, and all of them.
-/
import SemiThue.Proofs.Sequential.Exhaustive

set_option autoImplicit false

namespace SemiThue

namespace Action

variable {α σ : Type}

/-- **What a row of actions passes through**, given what each of them passes through: they are gone
through one after the other, as long as they end well. -/
inductive Passes (f : α → Action σ) (inside : α → σ → σ → Prop) : List α → σ → σ → Prop where
  /-- The first action is under way. -/
  | first {a : α} {l : List α} {s u : σ} : inside a s u → Passes f inside (a :: l) s u
  /-- The first action ended well, and some other one is under way. -/
  | later {a : α} {l : List α} {s t u : σ} : f a s = (t, none) → Passes f inside l t u →
      Passes f inside (a :: l) s u

/-- **What is known before every action is known of whatever it passes through.** -/
theorem Passes.holds {f : α → Action σ} {inside : α → σ → σ → Prop} {P : List α → σ → Prop}
    {Q : σ → Prop} {F : σ → Fault → Prop} (well : ∀ a l s, P (a :: l) s → Ends (P l) F (f a s))
    (within : ∀ a l s u, P (a :: l) s → inside a s u → Q u) {l : List α} {s u : σ}
    (h : Passes f inside l s u) (hs : P l s) : Q u := by
  induction h with
  | first hu => exact within _ _ _ _ hs hu
  | later ended _ ih =>
    have next := well _ _ _ hs
    rw [ended] at next
    exact ih next

/-- A row that is not empty passes through its end, if each action does. -/
theorem passes_each {f : α → Action σ} {inside : α → σ → σ → Prop} (ends : ∀ a s, inside a s (f a s).1)
    {l : List α} (some_action : l ≠ []) (s : σ) : Passes f inside l s (each f l s).1 := by
  induction l generalizing s with
  | nil => exact absurd rfl some_action
  | cons a l ih =>
    cases hf : f a s with
    | mk t fault =>
      have last : inside a s t := by
        have := ends a s
        rwa [hf] at this
      cases fault with
      | some fault =>
        rw [each_cons_of_some hf]
        exact .first last
      | none =>
        rw [each_cons_of_none hf]
        by_cases only : l = []
        · rw [only, each_nil]
          exact .first last
        · exact .later hf (ih only t)

end Action

namespace Exploration.Sequential

variable {σ : Type}

/-! ## Turns of the loop -/

/-- What the loop has in hand between two generations. -/
structure Loop (σ : Type) where
  /-- How many generations were completed. -/
  number : Nat
  /-- The generation that comes next. -/
  stage : List Text
  /-- The state. -/
  state : State σ

/-- **Where the loop comes by**: it begins with the start alone, and goes on as long as there is a
generation and it ends well. -/
inductive Reached (scope : Scope) (listener : Listener σ) (start : Text) (trail : Trail σ) :
    Loop σ → Prop where
  /-- The first generation is the start alone. -/
  | first : Reached scope listener start trail ⟨0, [start], .initial start trail⟩
  /-- What was collected during a generation is the next one. -/
  | turn {l : Loop σ} {s : State σ} : Reached scope listener start trail l → l.stage ≠ [] →
      generation scope listener l.number l.stage l.state = (s, none) →
      Reached scope listener start trail ⟨l.number + 1, s.next.reverse, s⟩

/-- **How the loop ends.** -/
inductive Loop.Ends (scope : Scope) (listener : Listener σ) (l : Loop σ) : Outcome σ → Prop where
  /-- No generation is left. -/
  | done : l.stage = [] → Ends scope listener l ⟨l.state, l.number, none⟩
  /-- The listener refuses a word. -/
  | refused {s : State σ} {fault : Fault} : l.stage ≠ [] →
      generation scope listener l.number l.stage l.state = (s, some fault) →
      Ends scope listener l ⟨s, l.number, some fault⟩

variable {scope : Scope} {listener : Listener σ} {start : Text} {trail : Trail σ}

theorem exists_ends_explore {number : Nat} {stage : List Text}
    {within : ∀ t ∈ stage, t.Over (scope.grammar.charactersFrom start)} {s : State σ}
    (h : Reached scope listener start trail ⟨number, stage, s⟩) :
    ∃ l, Reached scope listener start trail l ∧
      l.Ends scope listener (explore scope listener start number stage within s) := by
  fun_induction explore scope listener start number stage within s with
  | case1 number within s => exact ⟨_, h, .done rfl⟩
  | case2 number stage within s some_text t fault refused => exact ⟨_, h, .refused some_text refused⟩
  | case3 number stage within s some_text t ended ih => exact ih (h.turn some_text ended)

/-- **The outcome of a run is where the loop ends.** -/
theorem exists_ends_run (scope : Scope) (listener : Listener σ) (start : Text) (trail : Trail σ) :
    ∃ l, Reached scope listener start trail l ∧
      l.Ends scope listener (run scope listener start trail) :=
  exists_ends_explore .first

/-- A run that ends well goes on until no generation is left. -/
theorem exists_reached_of_fault_eq_none (well : (run scope listener start trail).fault = none) :
    ∃ l, Reached scope listener start trail l ∧ l.stage = [] ∧
      run scope listener start trail = ⟨l.state, l.number, none⟩ := by
  obtain ⟨l, reached, ends⟩ := exists_ends_run scope listener start trail
  generalize run scope listener start trail = o at ends well
  cases ends with
  | done nothing => exact ⟨l, reached, nothing, rfl⟩
  | refused => cases well

/-- Wherever the loop comes by, it has completed the generations before, and none of them was empty. -/
theorem Reached.exists_turn {l : Loop σ} (h : Reached scope listener start trail l) {k : Nat}
    (before : k < l.number) : ∃ l' s, Reached scope listener start trail l' ∧ l'.number = k ∧
      l'.stage ≠ [] ∧ generation scope listener k l'.stage l'.state = (s, none) := by
  induction h with
  | first => exact absurd before (Nat.not_lt_zero k)
  | @turn l s reached some_text ended ih =>
    rcases Nat.lt_succ_iff_lt_or_eq.1 before with earlier | rfl
    · exact ih earlier
    · exact ⟨l, s, reached, rfl, some_text, ended⟩

/-! ## Moments of a run -/

/-- What the application of a rule to a text passes through. -/
inductive RulePasses (scope : Scope) (listener : Listener σ) (text : Text) (rule : Rule) (s : State σ) :
    State σ → Prop where
  /-- The result is counted. -/
  | counted : RulePasses scope listener text rule s
      { s with trail := s.trail.counted (scope.apply text rule) }
  /-- The application is recorded. -/
  | recorded : RulePasses scope listener text rule s
      { s with trail := (s.trail.counted (scope.apply text rule)).recorded (scope.apply text rule) }
  /-- The result is announced. A listener that is told a word is called in this state. -/
  | announced : RulePasses scope listener text rule s
      { s with trail := s.trail.took (scope.apply text rule) }
  /-- The word was told, or the live text was claimed. -/
  | settled : RulePasses scope listener text rule s (applyRule scope listener text rule s).1

/-- What the taking up of a text passes through. -/
inductive TextPasses (scope : Scope) (listener : Listener σ) (text : Text) (s : State σ) :
    State σ → Prop where
  /-- The text is counted as taken up. -/
  | opened : TextPasses scope listener text s { s with trail := s.trail.opened text }
  /-- The rules are applied to it. -/
  | rules {u : State σ} :
      Action.Passes (applyRule scope listener text) (RulePasses scope listener text) scope.grammar.rules
        { s with trail := s.trail.opened text } u →
      TextPasses scope listener text s u
  /-- The text is done, or a word was refused. -/
  | done : TextPasses scope listener text s (expand scope listener text s).1

/-- What a generation passes through. -/
inductive GenerationPasses (scope : Scope) (listener : Listener σ) (number : Nat) (stage : List Text)
    (s : State σ) : State σ → Prop where
  /-- The generation is announced. -/
  | begun : GenerationPasses scope listener number stage s
      { s with next := [], trail := s.trail.noted .debug (heading number stage.length) }
  /-- Its texts are taken up. -/
  | texts {u : State σ} :
      Action.Passes (expand scope listener) (TextPasses scope listener) stage
        { s with next := [], trail := s.trail.noted .debug (heading number stage.length) } u →
      GenerationPasses scope listener number stage s u

/-- **What a run passes through**, from its beginning to its end. -/
inductive Passes (scope : Scope) (listener : Listener σ) (start : Text) (trail : Trail σ) :
    State σ → Prop where
  /-- The run is between two generations, or before the first one, or after the last one. -/
  | between {l : Loop σ} : Reached scope listener start trail l →
      Passes scope listener start trail l.state
  /-- A generation is under way. -/
  | within {l : Loop σ} {u : State σ} : Reached scope listener start trail l → l.stage ≠ [] →
      GenerationPasses scope listener l.number l.stage l.state u → Passes scope listener start trail u

/-- **A run passes through its end.** -/
theorem passes_run (scope : Scope) (listener : Listener σ) (start : Text) (trail : Trail σ) :
    Passes scope listener start trail (run scope listener start trail).state := by
  obtain ⟨l, reached, ends⟩ := exists_ends_run scope listener start trail
  generalize run scope listener start trail = o at ends
  cases ends with
  | done => exact .between reached
  | @refused s fault some_text refused =>
    refine .within reached some_text (.texts ?_)
    have last : Action.Passes (expand scope listener) (TextPasses scope listener) l.stage _
        (generation scope listener l.number l.stage l.state).1 :=
      Action.passes_each (fun _ _ => .done) some_text _
    rwa [refused] at last

end Exploration.Sequential

end SemiThue
