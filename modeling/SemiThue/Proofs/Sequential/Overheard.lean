/-
Sequential runs with an overheard listener.

As on a pool, nothing in the loop looks at the state of the listener. So the run with the overheard
listener, once its log is taken away, is the run with the listener. What an explorer reports does not
depend on whether its listener is overheard, whatever its strategy.
-/
import SemiThue.Proofs.Pool.Overheard

set_option autoImplicit false

namespace SemiThue

/-- **Rows of actions that go alike step by step** go alike as a whole. -/
theorem Action.each_map {α σ τ : Type} {f : α → Action σ} {f' : α → Action τ} (g : τ → σ)
    (h : ∀ a t, f a (g t) = (g (f' a t).1, (f' a t).2)) (l : List α) (t : τ) :
    Action.each f l (g t) = (g (Action.each f' l t).1, (Action.each f' l t).2) := by
  induction l generalizing t with
  | nil => rfl
  | cons a l ih =>
    have ha := h a t
    cases hf : f' a t with
    | mk u fault =>
      rw [hf] at ha
      cases fault with
      | none => rw [each_cons_of_none ha, each_cons_of_none hf, ih]
      | some fault => rw [each_cons_of_some ha, each_cons_of_some hf]

namespace Exploration.Sequential

variable {σ : Type}

/-- The state without the log. -/
def State.forget (s : State (Heard σ)) : State σ := { s with trail := s.trail.forget }

/-- The outcome without the log. -/
def Outcome.forget (o : Outcome (Heard σ)) : Outcome σ := { o with state := o.state.forget }

variable (scope : Scope) (listener : Listener σ) {start : Text}

theorem State.forget_claim (s : State (Heard σ)) (t : Text) : (s.claim t).forget = s.forget.claim t := by
  have h : s.forget.visited = s.visited := rfl
  simp only [claim, h]
  cases s.visited.claim? t <;> rfl

theorem applyRule_forget (text : Text) (rule : Rule) (s : State (Heard σ)) :
    applyRule scope listener text rule s.forget =
      ((applyRule scope listener.overheard text rule s).1.forget,
        (applyRule scope listener.overheard text rule s).2) := by
  have took : s.forget.trail.took (scope.apply text rule) =
      (s.trail.took (scope.apply text rule)).forget := by
    simp only [Trail.took, Trail.forget_announced]
    rfl
  simp only [applyRule, took]
  cases (scope.apply text rule).verdict with
  | live =>
    refine Prod.ext ?_ rfl
    exact (State.forget_claim { s with trail := s.trail.took (scope.apply text rule) } _).symm
  | _ => rfl

theorem expand_forget (text : Text) (s : State (Heard σ)) :
    expand scope listener text s.forget =
      ((expand scope listener.overheard text s).1.forget,
        (expand scope listener.overheard text s).2) := by
  have rules := Action.each_map State.forget (applyRule_forget scope listener text)
    scope.grammar.rules { s with trail := s.trail.opened text }
  have opened : ({ s.forget with trail := s.forget.trail.opened text } : State σ) =
      State.forget { s with trail := s.trail.opened text } := rfl
  simp only [expand, opened, rules]
  cases Action.each (applyRule scope listener.overheard text) scope.grammar.rules
      { s with trail := s.trail.opened text } with
  | mk t fault => cases fault <;> rfl

theorem generation_forget (number : Nat) (stage : List Text) (s : State (Heard σ)) :
    generation scope listener number stage s.forget =
      ((generation scope listener.overheard number stage s).1.forget,
        (generation scope listener.overheard number stage s).2) :=
  Action.each_map State.forget (expand_forget scope listener) stage
    { s with next := [], trail := s.trail.noted .debug (heading number stage.length) }

theorem explore_forget (number : Nat) (stage : List Text)
    (within : ∀ t ∈ stage, t.Over (scope.grammar.charactersFrom start)) (s : State (Heard σ)) :
    explore scope listener start number stage within s.forget =
      (explore scope listener.overheard start number stage within s).forget := by
  fun_induction explore scope listener.overheard start number stage within s with
  | case1 number within s =>
    rw [explore, dif_pos rfl]
    rfl
  | case2 number stage within s hs t fault hg =>
    have h := generation_forget scope listener number stage s
    rw [hg] at h
    rw [explore, dif_neg hs]
    split
    · rename_i heq
      rw [h] at heq
      cases heq
      rfl
    · rename_i heq
      rw [h] at heq
      cases heq
  | case3 number stage within s hs t hg ih =>
    have h := generation_forget scope listener number stage s
    rw [hg] at h
    rw [explore, dif_neg hs]
    split
    · rename_i heq
      rw [h] at heq
      cases heq
    · rename_i heq
      rw [h] at heq
      cases heq
      exact ih

/-- **A sequential run does not see the log.** -/
theorem run_forget (scope : Scope) (listener : Listener σ) (start : Text) (trail : Trail (Heard σ)) :
    run scope listener start trail.forget = (run scope listener.overheard start trail).forget :=
  explore_forget scope listener 0 [start] _ (.initial start trail)

end Exploration.Sequential

namespace Exploration

variable {σ : Type}

/-- A run that has ended, without the log. -/
def Ended.forget (ended : Ended (Heard σ)) : Ended σ := { ended with heard := ended.heard.2 }

theorem Explorer.close_forget (e : Explorer) (start : Text) (generations : Nat) (fault : Option Fault)
    (trail : Trail (Heard σ)) :
    e.close start generations fault trail.forget = (e.close start generations fault trail).forget := by
  cases fault <;> rfl

/-- **A run ends in the same way, overheard or not.** -/
theorem Explorer.run_forget (e : Explorer) (listener : Listener σ) (start : Text) (journal : Journal)
    (heard : Heard σ) : e.run listener start journal heard.2 =
      (e.run listener.overheard start journal heard).forget := by
  have opened : e.openTrail start journal heard.2 = (e.openTrail start journal heard).forget := rfl
  cases hs : e.strategy with
  | sequential =>
    simp only [run, hs, opened, Sequential.run_forget]
    exact close_forget _ _ _ _ _
  | concurrent crew =>
    simp only [run, hs, opened, Pool.run_forget, plan_overheard]
    exact close_forget _ _ _ _ _

end Exploration

end SemiThue
