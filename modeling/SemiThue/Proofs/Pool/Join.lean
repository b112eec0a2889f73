/-
The caller waits for the right thing.

A run on a pool ends when the count of outstanding units is back at zero. That this is the right moment
is not evident from any single move: the count goes up before a unit is handed over and down after its
worker is done, and between the two moves of one worker all the others may move. The invariant is an
equation. In every reachable state the count is the number of units that wait in the queue or have a
worker, plus the number of those that were counted and are about to be handed over.

A worker is still on its unit when it hands over another one, and the caller is still before its wait
when it hands over the start; so the count cannot drop to zero between the two, and zero means that
nobody is left who could schedule anything. Everything else about the end of a run follows: the pool is
closed only when nothing can be submitted any more, and nothing moves once the caller has its answer.
-/
import SemiThue.Proofs.Ended
import SemiThue.Proofs.Listening
import SemiThue.Proofs.Pool.Turn
import SemiThue.Proofs.Reach

set_option autoImplicit false

namespace SemiThue.Exploration

variable {σ : Type}

/-- A crew of one worker and so many others. -/
def Crew.ofSucc (others : Nat) (atomic : Bool) : Crew := { workers := some (others + 1), atomic }

/-! ## Units -/

/-- How many units a worker has counted and not handed to the pool yet. -/
def Worker.unsubmitted (w : Worker) : Nat :=
  match w.point with
  | .submitting _ => 1
  | _ => 0

/-- How many units the caller has counted and not handed to the pool yet. -/
def Caller.unsubmitted : Caller → Nat
  | .submitting => 1
  | _ => 0

namespace Pool

/-- How many units wait in the queue or have a worker. -/
def units (p : Pool σ) : Nat := p.shared.queue.toList.length + p.crew.length

/-- How many units were counted and not handed to the pool yet. -/
def unsubmitted (p : Pool σ) : Nat :=
  p.caller.unsubmitted + Measure.total Worker.unsubmitted p.crew

end Pool

/-- A worker changes the count by what it changes in the queue and in its own hands. -/
theorem Worker.Turn.outstanding_add {plan : Plan σ} {s s' : Shared σ} {w w' : Worker}
    (h : Worker.Turn plan s w s' w') :
    s'.outstanding + s.queue.toList.length + w.unsubmitted =
      s.outstanding + s'.queue.toList.length + w'.unsubmitted := by
  -- arithmetic is about whole numbers, whatever they count
  unfold Outstanding
  cases h with
  | count => simp only [Worker.unsubmitted, Shared.countUp, Outstanding.up_eq]; omega
  | submit =>
    simp only [Worker.unsubmitted, Queue.toList_push, List.length_append, List.length_singleton]
    omega
  | shutOut => simp only [Worker.unsubmitted, Shared.countDown, Outstanding.down_eq]; omega
  | note => rfl
  | _ => rfl

/-- Only the caller closes the pool. -/
theorem Worker.Turn.accepting_eq {plan : Plan σ} {s s' : Shared σ} {w w' : Worker}
    (h : Worker.Turn plan s w s' w') : s'.accepting = s.accepting := by
  cases h <;> rfl

namespace Pool

variable {plan : Plan σ} {trail : Trail σ} {p q : Pool σ}

/-! ## The invariant -/

/-- **The count is right**, and the caller is where it should be. -/
structure Joined (p : Pool σ) : Prop where
  /-- The count is that of the units there are and of those about to be handed over. -/
  count : p.shared.outstanding = (p.units + p.unsubmitted : Nat)
  /-- There are units only while the caller waits. -/
  waiting : 0 < p.units → p.caller = .waiting
  /-- The pool takes units until the caller closes it. -/
  accepting : p.shared.accepting = true ↔ p.caller ≠ .closing ∧ p.caller ≠ .finished

theorem joined_initial (plan : Plan σ) (trail : Trail σ) : (initial plan.start trail).Joined where
  count := rfl
  waiting h := by simp [units, initial] at h
  accepting := by simp [initial]

/-- **Every move keeps the count right.** -/
theorem Joined.turn (h : p.Joined) {m : Move} (t : Turn plan p m q) : q.Joined := by
  have count := h.count
  cases t with
  | count caller =>
    -- the start is counted before it is handed over, so the caller owes it now
    refine ⟨?_, fun hu => ?_, ?_⟩
    · simp only [units, unsubmitted, caller, Caller.unsubmitted, Shared.countUp,
        Outstanding.up_eq] at count ⊢
      unfold Outstanding at *
      omega
    · rw [h.waiting hu] at caller
      cases caller
    · exact h.accepting.trans (by simp [caller])
  | submit caller =>
    -- what the caller owed is in the queue now
    refine ⟨?_, fun _ => rfl, ?_⟩
    · simp only [units, unsubmitted, caller, Caller.unsubmitted, Queue.toList_push,
        List.length_append, List.length_singleton] at count ⊢
      unfold Outstanding at *
      omega
    · simpa [caller] using h.accepting
  | close caller settled =>
    -- the count is not negative, so it is zero and there are no units
    have none_left : p.units = 0 := by unfold Outstanding at *; omega
    refine ⟨?_, fun hu => ?_, by simp⟩
    · simp only [units, unsubmitted, caller, Caller.unsubmitted] at count ⊢
      exact count
    · simp only [units] at hu none_left
      omega
  | finish caller crew queue =>
    refine ⟨?_, fun hu => ?_, ?_⟩
    · simp only [units, unsubmitted, caller, Caller.unsubmitted] at count ⊢
      exact count
    · simp [units, crew, queue] at hu
    · simpa [caller] using h.accepting
  | @begin i unit queue taken free =>
    -- a unit goes from the queue to a worker, and there are as many as before
    obtain ⟨hi, hq⟩ := Queue.take?_eq_some taken
    have hlt : i < p.shared.queue.toList.length := (List.getElem?_eq_some_iff.1 hi).1
    have length : queue.toList.length + 1 = p.shared.queue.toList.length := by
      rw [hq, List.length_eraseIdx_of_lt hlt]
      omega
    have waiting : p.caller = .waiting := h.waiting (by simp only [units]; omega)
    refine ⟨?_, fun _ => waiting, h.accepting⟩
    simp only [units, unsubmitted, Measure.total_append, Measure.total_cons, Measure.total_nil,
      List.length_append, List.length_singleton, Worker.unsubmitted] at count ⊢
    unfold Outstanding at *
    omega
  | @work i w w' shared at_i turn =>
    have busy : 0 < p.crew.length := by
      have := (List.getElem?_eq_some_iff.1 at_i).1
      omega
    have waiting : p.caller = .waiting := h.waiting (by simp only [units]; omega)
    refine ⟨?_, fun _ => waiting, ?_⟩
    · -- nobody but this worker changed what it owes
      have crew := Measure.total_set Worker.unsubmitted w' at_i
      have own := turn.outstanding_add
      simp only [units, unsubmitted, List.length_set] at count ⊢
      unfold Outstanding at *
      omega
    · rw [turn.accepting_eq]
      exact h.accepting
  | @leave i w at_i point =>
    have hlt := (List.getElem?_eq_some_iff.1 at_i).1
    have waiting : p.caller = .waiting := h.waiting (by simp only [units]; omega)
    refine ⟨?_, fun _ => waiting, h.accepting⟩
    -- the worker owed nothing, so its unit and its share of the count go together
    have crew := Measure.total_eraseIdx Worker.unsubmitted at_i
    have own : w.unsubmitted = 0 := by simp only [Worker.unsubmitted, point]
    simp only [units, unsubmitted, Shared.countDown, Outstanding.down_eq,
      List.length_eraseIdx_of_lt hlt] at count ⊢
    unfold Outstanding at *
    omega

/-- **The count is right in every reachable state.** -/
theorem Reachable.joined (h : Reachable plan trail p) : p.Joined :=
  h.keeps (joined_initial plan trail) fun _ hp ht => hp.turn ht

/-! ## What follows -/

/-- Whoever is on a unit is counted. -/
theorem Joined.outstanding_pos (h : p.Joined) (hu : 0 < p.units) : 1 ≤ p.shared.outstanding := by
  have count := h.count
  unfold Outstanding at *
  omega

/-- There are no units when the caller does not wait. -/
theorem Joined.empty (h : p.Joined) (hc : p.caller ≠ .waiting) :
    p.shared.queue.toList = [] ∧ p.crew = [] := by
  have none_left : p.units = 0 := by
    refine Nat.eq_zero_of_not_pos fun hu => ?_
    exact hc (h.waiting hu)
  unfold units at none_left
  exact ⟨List.length_eq_zero_iff.1 (by omega), List.length_eq_zero_iff.1 (by omega)⟩

/-- While there are units, the pool takes more. -/
theorem Joined.accepting_of_units (h : p.Joined) (hu : 0 < p.units) : p.shared.accepting = true := by
  rw [h.accepting, h.waiting hu]
  simp

/-- Only a caller past its wait has closed the pool. -/
theorem Joined.shut (h : p.Joined) (closed : p.shared.accepting = false) :
    p.caller = .closing ∨ p.caller = .finished := by
  -- before the caller is past its wait, the pool is open
  have open_before : ∀ c, p.caller = c → c ≠ .closing → c ≠ .finished → False := by
    intro c hc h₁ h₂
    rw [h.accepting.2 (hc ▸ ⟨h₁, h₂⟩)] at closed
    cases closed
  cases hc : p.caller with
  | closing => exact .inl rfl
  | finished => exact .inr rfl
  | counting => exact (open_before _ hc (by simp) (by simp)).elim
  | submitting => exact (open_before _ hc (by simp) (by simp)).elim
  | waiting => exact (open_before _ hc (by simp) (by simp)).elim

theorem units_pos_of_mem {w : Worker} (hw : w ∈ p.crew) : 0 < p.units := by
  have := List.length_pos_of_mem hw
  unfold units
  omega

/-- The caller goes on from its wait only when there are no units. -/
theorem Joined.empty_of_close (h : p.Joined) (hc : p.caller = .waiting) (hm : p.move? plan .caller = some q) :
    p.shared.queue.toList = [] ∧ p.crew = [] := by
  have hq := h.turn (turn_of_move? hm)
  cases turn_of_move? hm with
  | count caller => rw [hc] at caller; cases caller
  | submit caller => rw [hc] at caller; cases caller
  | close => exact hq.empty (by simp)
  | finish caller => rw [hc] at caller; cases caller

/-- When the caller has its answer, nothing is outstanding. -/
theorem Joined.outstanding_eq_zero (h : p.Joined) (hc : p.caller = .finished) :
    p.shared.outstanding = 0 := by
  obtain ⟨queue, crew⟩ := h.empty (by simp [hc])
  rw [h.count]
  simp [units, unsubmitted, queue, crew, hc, Caller.unsubmitted]

/-- When the caller has its answer, nobody moves. -/
theorem Joined.move?_eq_none (h : p.Joined) (hc : p.caller = .finished) (m : Move) :
    p.move? plan m = none := by
  obtain ⟨queue, crew⟩ := h.empty (by simp [hc])
  cases hm : p.move? plan m with
  | none => rfl
  | some q =>
    cases turn_of_move? hm with
    | count caller => rw [hc] at caller; cases caller
    | submit caller => rw [hc] at caller; cases caller
    | close caller => rw [hc] at caller; cases caller
    | finish caller => rw [hc] at caller; cases caller
    | begin taken =>
      have := (Queue.take?_eq_some taken).1
      rw [queue] at this
      simp at this
    | work at_i => rw [crew] at at_i; simp at at_i
    | leave at_i => rw [crew] at at_i; simp at at_i

theorem Joined.eq_of_follow? (h : p.Joined) (hc : p.caller = .finished) {ms : List Move}
    (hf : p.follow? plan ms = some q) : q = p := by
  cases ms with
  | nil => exact (Option.some.inj hf).symm
  | cons m ms =>
    rw [follow?, h.move?_eq_none hc, Option.bind_none] at hf
    cases hf

/-- A worker can move unless it has to wait for the lock. -/
theorem isSome_move?_work {i : Nat} {w : Worker} (at_i : p.crew[i]? = some w)
    (free : (w.wantsLock && p.isLocked) = false) : (p.move? plan (.work i)).isSome = true := by
  simp only [move?, at_i, free]
  cases w.move plan p.shared with
  | mk shared w' => cases w' <;> rfl

/-- **Somebody need not wait**, if there are workers: whoever holds the lock, or everybody if nobody
does. -/
theorem exists_at_foremost (busy : p.crew ≠ []) :
    ∃ w, p.crew[p.foremost]? = some w ∧ (w.wantsLock && p.isLocked) = false := by
  unfold foremost
  cases found : p.crew.findIdx? Worker.holdsLock with
  | some i =>
    obtain ⟨hi, holds, -⟩ := List.findIdx?_eq_some_iff_getElem.1 found
    refine ⟨p.crew[i], List.getElem?_eq_getElem hi, ?_⟩
    rw [Worker.wantsLock_of_holdsLock holds, Bool.false_and]
  | none =>
    have nobody : p.crew.any Worker.holdsLock = false :=
      List.any_eq_false.2 fun x hx => by simp [List.findIdx?_eq_none_iff.1 found x hx]
    obtain ⟨w, ws, crew⟩ := List.exists_cons_of_ne_nil busy
    refine ⟨w, by simp [crew], ?_⟩
    simp [isLocked, nobody]

/-- A worker that is alone need not wait for itself. -/
theorem foremost_eq_zero (few : p.crew.length ≤ 1) : p.foremost = 0 := by
  by_cases busy : p.crew = []
  · simp [foremost, busy]
  · obtain ⟨w, at_w, -⟩ := exists_at_foremost busy
    have := (List.getElem?_eq_some_iff.1 at_w).1
    omega

/-- Somebody can move until the caller has its answer: a worker, or one that begins, or the caller. -/
theorem Reachable.finished_of_stuck (h : Reachable plan trail p)
    (stuck : p.move? plan p.next = none) : p.caller = .finished := by
  have joined := h.joined
  cases crew : p.crew with
  | cons w ws =>
    -- not all workers wait for the lock
    exfalso
    obtain ⟨x, at_x, free⟩ := p.exists_at_foremost (by simp [crew])
    have next_work : p.next = .work p.foremost := by simp [next, crew]
    have moves : (p.move? plan (.work p.foremost)).isSome = true := isSome_move?_work at_x free
    rw [next_work] at stuck
    rw [stuck] at moves
    cases moves
  | nil =>
    by_cases queue : p.shared.queue.toList = []
    · have next_caller : p.next = .caller := by simp [next, crew, Queue.isEmpty_iff.2 queue]
      rw [next_caller] at stuck
      have settled : p.caller = .waiting → p.shared.outstanding.isSettled = true := by
        intro waiting
        rw [Outstanding.isSettled_iff, joined.count]
        simp [units, unsubmitted, queue, crew, waiting, Caller.unsubmitted]
      cases caller : p.caller with
      | finished => rfl
      | waiting => simp [move?, caller, settled caller] at stuck
      | closing => simp [move?, caller, crew, Queue.isEmpty_iff.2 queue] at stuck
      | counting => simp [move?, caller] at stuck
      | submitting => simp [move?, caller] at stuck
    · -- the first unit of the queue can be begun, as no worker is busy
      exfalso
      have some_unit : p.shared.queue.isEmpty = false := by
        rw [← Bool.not_eq_true, Queue.isEmpty_iff]
        exact queue
      have taken := Queue.isSome_take?_iff (q := p.shared.queue) (i := 0) |>.2
        (List.length_pos_iff.2 queue)
      obtain ⟨⟨unit, rest⟩, taken⟩ := Option.isSome_iff_exists.1 taken
      simp [next, move?, crew, some_unit, taken, plan.workers_pos] at stuck

/-- A run with the fixed choice of moves goes on as long as the next move is possible. -/
theorem move?_next_runFrom (within : p.Within plan) :
    (runFrom plan p within).move? plan (runFrom plan p within).next = none := by
  fun_induction runFrom plan p within with
  | case1 p within stuck => exact stuck
  | case2 p within q hm ih => exact ih

/-- **The run with the fixed choice of moves gets to its end.** -/
theorem finished_run (plan : Plan σ) (trail : Trail σ) : (run plan trail).caller = .finished :=
  (reachable_run plan trail).finished_of_stuck (move?_next_runFrom _)

/-- **The join is sound.** In every reachable state of a run, whatever the listener answers, the count of
outstanding units is the number of units that wait or have a worker, plus those that were counted and
are about to be handed over. Hence it is at least one as long as some worker is on its unit, telling a
word or about to schedule another text. The caller goes on from its wait only when there are no units,
whoever submits finds the pool open, and when the caller has its answer, good or bad, nothing is
outstanding and nothing happens any more. -/
theorem outstanding_eq_units_add_unsubmitted (plan : Plan σ) (trail : Trail σ) {p : Pool σ}
    (h : Reachable plan trail p) :
    p.shared.outstanding = (p.units + p.unsubmitted : Nat) ∧
      (∀ w ∈ p.crew, 1 ≤ p.shared.outstanding) ∧
      (∀ q, p.caller = .waiting → p.move? plan .caller = some q →
        p.shared.queue.toList = [] ∧ p.crew = []) ∧
      (p.shared.accepting = false → p.shared.queue.toList = [] ∧ p.crew = [] ∧ p.unsubmitted = 0) ∧
      (∀ w ∈ p.crew, ∀ t, w.point = .submitting t → (p.shared.submit? t).isSome = true) ∧
      (p.caller = .submitting → p.shared.accepting = true) ∧
      (p.caller = .finished →
        (∀ ms q, p.follow? plan ms = some q → q = p) ∧ p.shared.outstanding = 0 ∧
          ∀ e : Explorer, (e.afterPool plan.start p).explorer.outstanding = 0) := by
  have joined := h.joined
  refine ⟨joined.count, ?_, ?_, ?_, ?_, ?_, ?_⟩
  · intro w hw
    exact joined.outstanding_pos (units_pos_of_mem hw)
  · intro q hc hm
    exact joined.empty_of_close hc hm
  · intro closed
    have shut := joined.shut closed
    obtain ⟨queue, crew⟩ := joined.empty (by rcases shut with hc | hc <;> simp [hc])
    refine ⟨queue, crew, ?_⟩
    rcases shut with hc | hc <;> simp [unsubmitted, hc, crew, Caller.unsubmitted]
  · intro w hw t _
    rw [Shared.submit?, if_pos (joined.accepting_of_units (units_pos_of_mem hw))]
    rfl
  · intro hc
    rw [joined.accepting, hc]
    simp
  · intro hc
    refine ⟨fun ms q hf => joined.eq_of_follow? hc hf, joined.outstanding_eq_zero hc, ?_⟩
    intro e
    rw [e.outstanding_afterPool]
    exact joined.outstanding_eq_zero hc

/-! ## Two workers

The runs below are over `Scope.converging`, from `S`, with two workers. -/

/-- The explorer of the runs below. -/
def converging : Explorer where
  scope := .converging
  strategy := .concurrent { workers := some 2 }

/-- What the runs below are to do. -/
def convergingPlan (listener : Listener Unit) : Plan (Heard Unit) :=
  converging.plan { workers := some 2 } listener.overheard ['S']

/-- The trail with which the runs below begin. -/
def convergingTrail : Trail (Heard Unit) := converging.openTrail ['S'] {} ([], ())

/-- One worker is on `S` and has come upon `T`; the next move counts `T`, and the one after it hands `T`
to the pool. -/
def convergingMoves : List Move := [.caller, .caller, .begin 0] ++ List.replicate 8 (.work 0)

/-- Between the two moves the count is ahead of the units. -/
theorem outstanding_eq_units_add_unsubmitted_converging :
    let p := after (convergingPlan .taking) convergingTrail (convergingMoves ++ [.work 0])
    p.shared.outstanding = (p.units + p.unsubmitted : Nat) ∧ p.units = 1 ∧ p.unsubmitted = 1 :=
  ⟨(outstanding_eq_units_add_unsubmitted (convergingPlan .taking) convergingTrail
      (reachable_after _ _ _)).1, by decide, by decide⟩

end Pool

end SemiThue.Exploration
