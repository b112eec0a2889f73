/-
Runs on a pool with an overheard listener.

The run with the overheard listener and the run with the listener itself go through the same states,
apart from the log. `forget` takes the log away; it commutes with every move, so a run with the
overheard listener is a run with the listener once its log is forgotten.

A turn makes at most one call. `Worker.Turn.call_or_quiet` says what it does to the log, and every
statement about the calls of a run goes through it. So if every call was answered well, nothing is known of
the listener but that it took these words, and the run is one of a listener that takes every word
(`Reachable.obliging`).
-/
import SemiThue.Proofs.Listening
import SemiThue.Proofs.Pool.Turn

set_option autoImplicit false

namespace SemiThue.Exploration

variable {σ : Type}

/-- The same plan with its listener overheard. -/
def Plan.overheard (plan : Plan σ) : Plan (Heard σ) :=
  { plan with listener := plan.listener.overheard }

theorem Explorer.plan_overheard (e : Explorer) (crew : Crew) (listener : Listener σ) (start : Text) :
    e.plan crew listener.overheard start = (e.plan crew listener start).overheard := rfl

/-! ## Taking the log away -/

/-- The trail without the log. -/
def Trail.forget (t : Trail (Heard σ)) : Trail σ := { t with heard := t.heard.2 }

/-- What is shared, without the log. -/
def Shared.forget (s : Shared (Heard σ)) : Shared σ := { s with trail := s.trail.forget }

/-- The state without the log. -/
def Pool.forget (p : Pool (Heard σ)) : Pool σ := { p with shared := p.shared.forget }

theorem Trail.forget_announced (t : Trail (Heard σ)) (a : Application) :
    (t.announced a).forget = t.forget.announced a := by
  unfold announced
  cases a.verdict <;> rfl

variable {plan : Plan σ} {trail : Trail (Heard σ)}

/-- **A worker does not see the log.** -/
theorem Worker.move_forget (w : Worker) (s : Shared (Heard σ)) :
    w.move plan s.forget =
      ((w.move plan.overheard s).1.forget, (w.move plan.overheard s).2) := by
  obtain ⟨unit, todo, point⟩ := w
  cases point with
  | applying => cases todo <;> rfl
  | announcing a => simp only [move, Shared.forget, Trail.forget_announced]
  | telling word =>
    simp only [move, Trail.tell_eq, Plan.overheard, Listener.overheard_apply]
    cases h : plan.listener s.outstanding word s.trail.heard.2 with
    | mk heard answer =>
      have h' : plan.listener s.forget.outstanding word s.forget.trail.heard = (heard, answer) := h
      rw [h']
      cases answer <;> rfl
  | claiming t =>
    have h : s.forget.visited = s.visited := rfl
    simp only [move, h]
    cases s.visited.claim? t with
    | none => rfl
    | some visited => cases ha : plan.atomic <;> simp [Plan.overheard, ha, Shared.forget]
  | submitting t =>
    have h : s.forget.accepting = s.accepting := rfl
    simp only [move, Shared.submit?, h]
    cases s.accepting <;> rfl
  | _ => rfl

namespace Pool

/-- Whether the graph is locked does not depend on the log. -/
theorem isLocked_forget (p : Pool (Heard σ)) : p.forget.isLocked = p.isLocked := rfl

/-- **A move does not see the log.** -/
theorem move?_forget (p : Pool (Heard σ)) (m : Move) :
    p.forget.move? plan m = (p.move? plan.overheard m).map forget := by
  cases m with
  | caller =>
    obtain ⟨shared, crew, caller⟩ := p
    cases caller with
    | waiting =>
      have h : shared.forget.outstanding = shared.outstanding := rfl
      simp only [move?, forget, h]
      cases shared.outstanding.isSettled <;> rfl
    | closing =>
      have h : shared.forget.queue = shared.queue := rfl
      simp only [move?, forget, h]
      cases crew.isEmpty && shared.queue.isEmpty <;> rfl
    | _ => rfl
  | begin i =>
    have h : p.forget.shared.queue = p.shared.queue := rfl
    simp only [move?, h]
    cases p.shared.queue.take? i with
    | none => rfl
    | some taken =>
      by_cases hf : p.crew.length < plan.workers
      · have h₁ : p.forget.crew.length < plan.workers := hf
        have h₂ : p.crew.length < plan.overheard.workers := hf
        simp only [if_pos h₁, if_pos h₂]
        rfl
      · have h₁ : ¬p.forget.crew.length < plan.workers := hf
        have h₂ : ¬p.crew.length < plan.overheard.workers := hf
        simp only [if_neg h₁, if_neg h₂]
        rfl
  | work i =>
    have hc : p.forget.crew = p.crew := rfl
    have hs : p.forget.shared = p.shared.forget := rfl
    simp only [move?, hc, hs, isLocked_forget]
    cases p.crew[i]? with
    | none => rfl
    | some w =>
      simp only [Worker.move_forget]
      cases w.wantsLock && p.isLocked with
      | true => rfl
      | false =>
        cases w.move plan.overheard p.shared with
        | mk shared w' => cases w' <;> rfl

/-- Without its log, a run with the overheard listener is a run with the listener. -/
theorem Reachable.forget {p : Pool (Heard σ)} (h : Reachable plan.overheard trail p) :
    Reachable plan trail.forget p.forget := by
  induction h with
  | initial => exact .initial
  | step _ hs ih =>
    obtain ⟨m, hm⟩ := hs
    exact ih.step ⟨m, by rw [move?_forget, hm]; rfl⟩

/-- **The run of the fixed choice of moves does not see the log.** -/
theorem runFrom_forget {p : Pool (Heard σ)} (within : p.Within plan.overheard)
    (within' : p.forget.Within plan) :
    runFrom plan p.forget within' = (runFrom plan.overheard p within).forget := by
  fun_induction runFrom plan.overheard p within with
  | case1 p within stop =>
    have stop' : p.forget.move? plan p.forget.next = none := by
      rw [move?_forget]
      exact congrArg (Option.map forget) stop
    rw [runFrom]
    split
    · rfl
    · rename_i hm
      rw [stop'] at hm
      cases hm
  | case2 p within q step ih =>
    have step' : p.forget.move? plan p.forget.next = some q.forget := by
      rw [move?_forget]
      exact congrArg (Option.map forget) step
    rw [runFrom]
    split
    · rename_i hm
      rw [step'] at hm
      cases hm
    · rename_i hm
      rw [step'] at hm
      cases hm
      exact ih _

theorem run_forget (plan : Plan σ) (trail : Trail (Heard σ)) :
    run plan trail.forget = (run plan.overheard trail).forget :=
  runFrom_forget (p := initial plan.start trail) (within_initial plan.overheard trail)
    (within_initial plan trail.forget)

end Pool

/-! ## The calls of a turn -/

/-- **A turn makes one call, or none.** It makes one when a word is told, and what the worker does next
depends on the answer. -/
theorem Worker.Turn.call_or_quiet {s s' : Shared (Heard σ)} {w w' : Worker}
    (h : Worker.Turn plan.overheard s w s' w') :
    (s'.trail.calls = s.trail.calls ∧ ∀ word, w.point ≠ .telling word) ∨
      ∃ call : Call, s'.trail.calls = call :: s.trail.calls ∧ call.outstanding = s.outstanding ∧
        call.fault = (plan.listener s.outstanding call.word s.trail.heard.2).2 ∧
          s'.failure = s.failure ∧ w.point = .telling call.word ∧
            w'.point = call.fault.elim .applying .afterFault := by
  cases h with
  | @tell unit todo word heard answer =>
    obtain ⟨log, own⟩ := Listener.log_of_answer answer
    exact .inr ⟨⟨word, s.outstanding, none⟩, log, rfl, own, rfl, rfl, rfl⟩
  | @refused unit todo word heard fault answer failure =>
    obtain ⟨log, own⟩ := Listener.log_of_answer answer
    exact .inr ⟨⟨word, s.outstanding, some fault⟩, log, rfl, own, rfl, rfl,
      (Point.afterFault_of_failure failure).symm⟩
  | @desert unit todo word heard fault answer exit =>
    obtain ⟨log, own⟩ := Listener.log_of_answer answer
    exact .inr ⟨⟨word, s.outstanding, some fault⟩, log, rfl, own, rfl, rfl,
      (Point.afterFault_of_exit exit).symm⟩
  -- announcing goes by way of the journal only
  | announceWord => exact .inl ⟨congrArg Prod.fst (Trail.heard_announced _ _), by simp⟩
  | announceLive => exact .inl ⟨congrArg Prod.fst (Trail.heard_announced _ _), by simp⟩
  | announceNothing => exact .inl ⟨congrArg Prod.fst (Trail.heard_announced _ _), by simp⟩
  | _ => exact .inl ⟨rfl, by simp⟩

/-! ## Runs in which every call was answered well -/

/-- The same plan with a listener that takes every word. -/
def Plan.obliging (plan : Plan σ) : Plan σ := { plan with listener := plan.listener.obliging }

/-- A worker that was not refused a word does not see whether its listener might have done so. -/
theorem Worker.move_obliging {w : Worker} {s : Shared (Heard σ)}
    (answered : ∀ call ∈ (w.move plan.overheard s).1.trail.calls, call.fault = none) :
    w.move plan.obliging.overheard s = w.move plan.overheard s := by
  obtain ⟨unit, todo, point⟩ := w
  cases point with
  | telling word =>
    simp only [move, Trail.tell_eq, Plan.overheard, Listener.overheard_apply] at answered ⊢
    have obliged : plan.obliging.listener s.outstanding word s.trail.heard.2 =
        ((plan.listener s.outstanding word s.trail.heard.2).1, none) := rfl
    simp only [obliged]
    cases answer : (plan.listener s.outstanding word s.trail.heard.2).2 with
    | none => rfl
    | some fault =>
      -- that call would be in the log
      simp only [answer] at answered
      cases answered _ List.mem_cons_self
  | _ => rfl

namespace Pool

/-- A call that was made before a move is in the log afterwards. -/
theorem Turn.mem_calls {m : Move} {p q : Pool (Heard σ)} (turn : Turn plan.overheard p m q) {call : Call}
    (made : call ∈ p.shared.trail.calls) : call ∈ q.shared.trail.calls := by
  cases turn with
  | work at_i turn =>
    rcases turn.call_or_quiet with ⟨calls, -⟩ | ⟨_, calls, -⟩
    · rw [calls]
      exact made
    · rw [calls]
      exact List.mem_cons_of_mem _ made
  | _ => exact made

theorem move?_obliging {m : Move} {p q : Pool (Heard σ)} (move : p.move? plan.overheard m = some q)
    (answered : ∀ call ∈ q.shared.trail.calls, call.fault = none) :
    p.move? plan.obliging.overheard m = some q := by
  cases m with
  | work i =>
    simp only [move?] at move ⊢
    cases at_i : p.crew[i]? with
    | none => simp [at_i] at move
    | some w =>
      simp only [at_i] at move ⊢
      have same : w.move plan.obliging.overheard p.shared = w.move plan.overheard p.shared := by
        refine Worker.move_obliging fun call called => answered call ?_
        split at move
        · cases move
        · cases hm : w.move plan.overheard p.shared with
          | mk shared w' =>
            rw [hm] at move called
            cases w' <;> cases move <;> exact called
      rw [same]
      exact move
  | _ => exact move

/-- **A run in which every call was answered well** is one of a listener that takes every word. -/
theorem Reachable.obliging {p : Pool (Heard σ)} (h : Reachable plan.overheard trail p)
    (answered : ∀ call ∈ p.shared.trail.calls, call.fault = none) :
    Reachable plan.obliging.overheard trail p := by
  induction h with
  | initial => exact .initial
  | @step p q _ move ih =>
    obtain ⟨m, hm⟩ := move
    have before := ih fun call called => answered call ((turn_of_move? hm).mem_calls called)
    exact before.step ⟨m, move?_obliging hm answered⟩

end Pool

end SemiThue.Exploration
