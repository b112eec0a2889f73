/-
Runs in which nothing has gone wrong.

A state is calm while no failure was noted and nobody is about to note one. Calm is lost in one way
only, by a call that the listener answers with a failure; a worker cannot find the pool closed. And it is
never regained, for a failure that was noted stays. So a reachable state is calm exactly if none of its
calls was answered with a failure, and a listener that refuses nothing leaves every state of its runs calm.

Calm does not mean that all calls were answered well. A listener that asks to leave does not disturb it,
though the unit of that worker is not done. It does mean so if the listener stays.
-/
import Mathlib.Data.List.Perm.Basic
import SemiThue.Proofs.Pool.Join
import SemiThue.Proofs.Pool.Overheard

set_option autoImplicit false

namespace SemiThue.Exploration

variable {σ : Type}

/-! ## One worker and the others -/

section Crew

variable {crew : List Worker} {i : Nat} {w : Worker}

/-- A crew is the worker at a place and the others. -/
theorem mem_crew_iff (at_i : crew[i]? = some w) {x : Worker} :
    x ∈ crew ↔ x = w ∨ x ∈ crew.eraseIdx i := by
  obtain ⟨hi, rfl⟩ := List.getElem?_eq_some_iff.1 at_i
  rw [← (List.getElem_cons_eraseIdx_perm hi).mem_iff, List.mem_cons]

/-- When a worker goes on, the others stay. -/
theorem mem_set_crew_iff (at_i : crew[i]? = some w) (w' : Worker) {x : Worker} :
    x ∈ crew.set i w' ↔ x = w' ∨ x ∈ crew.eraseIdx i := by
  have hi := (List.getElem?_eq_some_iff.1 at_i).1
  rw [(List.set_perm_cons_eraseIdx hi w').mem_iff, List.mem_cons]

end Crew

/-! ## Calm -/

/-- A worker is not about to note a failure. -/
def Worker.Calm (w : Worker) : Prop := ∀ fault, w.point ≠ .failing fault

/-- **Nothing has gone wrong**: no failure was noted, and nobody is about to note one. -/
structure Pool.Calm (p : Pool σ) : Prop where
  /-- No failure was noted. -/
  failure : p.shared.failure = none
  /-- No worker is about to note one. -/
  crew : ∀ w ∈ p.crew, w.Calm

/-- Noting a failure leaves a failure behind. -/
theorem Shared.failure_fail_ne_none (s : Shared σ) (unit : Text) (fault : Fault) :
    (s.fail unit fault).failure ≠ none := by
  cases hf : s.failure <;> simp [fail, noteFailure, hf]

/-- **A turn without a refusal changes nothing about calm**, as long as the pool takes units. -/
theorem Worker.Turn.calm_iff {plan : Plan σ} {s s' : Shared σ} {w w' : Worker}
    (h : Worker.Turn plan s w s' w') (accepting : s.accepting = true)
    (answered : ∀ word fault, w.point = .telling word → w'.point ≠ .failing fault) :
    s'.failure = none ∧ w'.Calm ↔ s.failure = none ∧ w.Calm := by
  cases h with
  | refused => exact absurd rfl (answered _ _ rfl)
  | shutOut closed => rw [accepting] at closed; cases closed
  | note =>
    constructor
    · rintro ⟨hf, -⟩
      exact absurd hf (Shared.failure_fail_ne_none _ _ _)
    · rintro ⟨-, hw⟩
      exact absurd rfl (hw _)
  | _ => simp [Worker.Calm, Shared.countUp]

/-- What is calm after a turn was calm before it. -/
theorem Worker.Turn.calm_of_calm {plan : Plan σ} {s s' : Shared σ} {w w' : Worker}
    (h : Worker.Turn plan s w s' w') (failure : s'.failure = none) (calm : w'.Calm) :
    s.failure = none ∧ w.Calm := by
  cases h with
  | note => exact absurd failure (Shared.failure_fail_ne_none _ _ _)
  | refused => exact absurd rfl (calm _)
  | shutOut => exact absurd rfl (calm _)
  | _ => exact ⟨failure, by simp [Worker.Calm]⟩

namespace Pool

/-- The calm of a state is that of what is shared, of one worker, and of the others. -/
theorem calm_iff_of_worker {p : Pool σ} {i : Nat} {w : Worker} (at_i : p.crew[i]? = some w) :
    p.Calm ↔ (p.shared.failure = none ∧ w.Calm) ∧ ∀ x ∈ p.crew.eraseIdx i, x.Calm := by
  constructor
  · intro h
    refine ⟨⟨h.failure, h.crew w ((mem_crew_iff at_i).2 (.inl rfl))⟩, fun x hx => ?_⟩
    exact h.crew x ((mem_crew_iff at_i).2 (.inr hx))
  · rintro ⟨⟨hf, hw⟩, others⟩
    refine ⟨hf, fun x hx => ?_⟩
    rcases (mem_crew_iff at_i).1 hx with rfl | hx
    · exact hw
    · exact others x hx

theorem calm_iff_of_set {crew : List Worker} {shared : Shared σ} {caller : Caller} {i : Nat}
    {w : Worker} (at_i : crew[i]? = some w) (w' : Worker) :
    (Pool.mk shared (crew.set i w') caller).Calm ↔
      (shared.failure = none ∧ w'.Calm) ∧ ∀ x ∈ crew.eraseIdx i, x.Calm := by
  have at_i' : (crew.set i w')[i]? = some w' := by
    rw [List.getElem?_set_self (List.getElem?_eq_some_iff.1 at_i).1]
  have others : (crew.set i w').eraseIdx i = crew.eraseIdx i := by
    rw [List.eraseIdx_set_eq]
  rw [calm_iff_of_worker (p := ⟨shared, crew.set i w', caller⟩) at_i', others]

theorem calm_congr {p q : Pool σ} (failure : q.shared.failure = p.shared.failure)
    (crew : q.crew = p.crew) : q.Calm ↔ p.Calm := by
  constructor
  · intro h
    exact ⟨failure ▸ h.failure, crew ▸ h.crew⟩
  · intro h
    exact ⟨failure ▸ h.failure, crew ▸ h.crew⟩

/-- **Calm is never regained**: what is calm after a move was calm before it. -/
theorem Turn.calm_of_calm {plan : Plan σ} {p q : Pool σ} {m : Move} (h : Turn plan p m q)
    (calm : q.Calm) : p.Calm := by
  cases h with
  | count => exact ⟨calm.failure, calm.crew⟩
  | submit => exact ⟨calm.failure, calm.crew⟩
  | close => exact ⟨calm.failure, calm.crew⟩
  | finish => exact ⟨calm.failure, calm.crew⟩
  | begin => exact ⟨calm.failure, fun w hw => calm.crew w (List.mem_append_left _ hw)⟩
  | work at_i turn =>
    obtain ⟨⟨failure, own⟩, others⟩ := (calm_iff_of_set at_i _).1 calm
    exact (calm_iff_of_worker at_i).2 ⟨turn.calm_of_calm failure own, others⟩
  | leave at_i point =>
    exact (calm_iff_of_worker at_i).2 ⟨⟨calm.failure, by simp [Worker.Calm, point]⟩, calm.crew⟩

variable {plan : Plan σ} {trail : Trail (Heard σ)}

/-- **Calm and the calls of a run.** A reachable state is calm exactly if no call was answered with a
failure. -/
theorem Reachable.calm_iff (fresh : trail.calls = []) {p : Pool (Heard σ)}
    (h : Reachable plan.overheard trail p) :
    p.Calm ↔ ∀ call ∈ p.shared.trail.calls, call.failed = false := by
  refine h.keeps (P := fun p => p.Calm ↔ ∀ call ∈ p.shared.trail.calls, call.failed = false) ?_ ?_
  · refine iff_of_true ⟨rfl, fun w hw => ?_⟩ fun call hc => ?_
    · simp [Pool.initial] at hw
    · rw [Pool.initial, fresh] at hc
      simp at hc
  · intro p q m hp ih ht
    cases ht with
    | count => exact Iff.trans (calm_congr (p := p) rfl rfl) ih
    | submit => exact Iff.trans (calm_congr (p := p) rfl rfl) ih
    | close => exact Iff.trans (calm_congr (p := p) rfl rfl) ih
    | finish => exact Iff.trans (calm_congr (p := p) rfl rfl) ih
    | begin =>
      -- a worker that comes is not about to note a failure
      refine Iff.trans (b := p.Calm)
        ⟨fun h => ⟨h.failure, fun w hw => ?_⟩, fun h => ⟨h.failure, fun w hw => ?_⟩⟩ ih
      · exact h.crew w (List.mem_append_left _ hw)
      · rcases List.mem_append.1 hw with hw | hw
        · exact h.crew w hw
        · rw [List.mem_singleton.1 hw]
          simp [Worker.Calm]
    | @work i w w' shared at_i turn =>
      have accepting : p.shared.accepting = true :=
        hp.joined.accepting_of_units (units_pos_of_mem (List.mem_of_getElem? at_i))
      rw [calm_iff_of_set at_i]
      rw [calm_iff_of_worker at_i] at ih
      rcases turn.call_or_quiet with ⟨calls, quiet⟩ | ⟨call, calls, -, -, failure, telling, answer⟩
      · rw [turn.calm_iff accepting fun word _ hw => absurd hw (quiet word), calls]
        exact ih
      · -- whether the worker is calm after its call is what the call was answered
        have calm : w.Calm := by simp [Worker.Calm, telling]
        have calm' : w'.Calm ↔ call.failed = false := by
          rw [Worker.Calm, answer, Call.failed]
          cases call.fault with
          | none => simp
          | some fault =>
            cases hf : fault.isFailure with
            | true => simp [Point.afterFault_of_failure hf, hf]
            | false => simp [Point.afterFault_of_exit hf, hf]
        rw [calls, List.forall_mem_cons, ← ih, failure, calm']
        tauto
    | leave at_i point =>
      rw [calm_iff_of_worker at_i] at ih
      refine Iff.trans ⟨fun h => ⟨⟨h.failure, ?_⟩, h.crew⟩, fun h => ⟨h.1.1, h.2⟩⟩ ih
      simp [Worker.Calm, point]

/-- Every call was answered as the listener answers. -/
theorem Reachable.exists_answer (fresh : trail.calls = []) {p : Pool (Heard σ)}
    (h : Reachable plan.overheard trail p) :
    ∀ call ∈ p.shared.trail.calls, ∃ heard,
      call.fault = (plan.listener call.outstanding call.word heard).2 := by
  refine h.keeps (P := fun p => ∀ call ∈ p.shared.trail.calls, ∃ heard,
    call.fault = (plan.listener call.outstanding call.word heard).2) ?_ ?_
  · intro call hc
    rw [Pool.initial, fresh] at hc
    simp at hc
  · intro p q m hp ih ht
    cases ht with
    | work at_i turn =>
      rcases turn.call_or_quiet with ⟨calls, -⟩ | ⟨call, calls, seen, fault, -⟩
      · rw [calls]
        exact ih
      · rw [calls, List.forall_mem_cons]
        exact ⟨⟨_, by rw [seen]; exact fault⟩, ih⟩
    | _ => exact ih

/-- What a listener that refuses nothing was told was answered well. -/
theorem Reachable.fault_eq_none (assents : plan.listener.Assents) (fresh : trail.calls = [])
    {p : Pool (Heard σ)} (h : Reachable plan.overheard trail p) :
    ∀ call ∈ p.shared.trail.calls, call.fault = none := by
  intro call called
  obtain ⟨heard, answer⟩ := h.exists_answer fresh call called
  rw [answer]
  exact assents _ _ _

/-- A listener that stays answers well or with a failure. -/
theorem Reachable.failed_eq_false_iff (stays : plan.listener.Stays) (fresh : trail.calls = [])
    {p : Pool (Heard σ)} (h : Reachable plan.overheard trail p) :
    ∀ call ∈ p.shared.trail.calls, (call.failed = false ↔ call.fault = none) := by
  intro call called
  obtain ⟨heard, answer⟩ := h.exists_answer fresh call called
  cases hf : call.fault with
  | none => simp [Call.failed, hf]
  | some fault => simp [Call.failed, hf, stays _ _ heard fault (answer.symm.trans hf)]

/-- With a listener that stays, a reachable state is calm exactly if every call was answered well. -/
theorem Reachable.calm_iff_of_stays (stays : plan.listener.Stays) (fresh : trail.calls = [])
    {p : Pool (Heard σ)} (h : Reachable plan.overheard trail p) :
    p.Calm ↔ ∀ call ∈ p.shared.trail.calls, call.fault = none := by
  rw [h.calm_iff fresh]
  exact forall₂_congr (h.failed_eq_false_iff stays fresh)

/-- **A run whose listener refuses nothing is calm throughout.** -/
theorem Reachable.calm (assents : plan.listener.Assents) (fresh : trail.calls = [])
    {p : Pool (Heard σ)} (h : Reachable plan.overheard trail p) : p.Calm :=
  (h.calm_iff_of_stays assents.stays fresh).2 (h.fault_eq_none assents fresh)

/-- When the caller has its answer, no worker is left that could still note a failure. -/
theorem Reachable.calm_iff_of_finished {trail : Trail σ} {plan : Plan σ} {p : Pool σ}
    (h : Reachable plan trail p) (finished : p.caller = .finished) :
    p.Calm ↔ p.shared.failure = none := by
  obtain ⟨-, crew⟩ := h.joined.empty (by simp [finished])
  refine ⟨fun calm => calm.failure, fun failure => ⟨failure, fun w hw => ?_⟩⟩
  rw [crew] at hw
  exact absurd hw List.not_mem_nil

/-- **A run ends without a failure exactly if no call was answered with one.** -/
theorem Reachable.failure_eq_none_iff (fresh : trail.calls = []) {p : Pool (Heard σ)}
    (h : Reachable plan.overheard trail p) (finished : p.caller = .finished) :
    p.shared.failure = none ↔ ∀ call ∈ p.shared.trail.calls, call.failed = false := by
  rw [← h.calm_iff_of_finished finished, h.calm_iff fresh]

/-- With a listener that stays, a run ends without a failure exactly if every call was answered well. -/
theorem Reachable.failure_eq_none_iff_of_stays (stays : plan.listener.Stays) (fresh : trail.calls = [])
    {p : Pool (Heard σ)} (h : Reachable plan.overheard trail p) (finished : p.caller = .finished) :
    p.shared.failure = none ↔ ∀ call ∈ p.shared.trail.calls, call.fault = none := by
  rw [← h.calm_iff_of_finished finished, h.calm_iff_of_stays stays fresh]

end Pool

end SemiThue.Exploration
