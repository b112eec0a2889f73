/-
A run on a pool is never stuck, and it is never without end.

The two halves have nothing to do with each other. That there is an end is a matter of effort: every move
uses some up, in every state within the universe, and reachable states are within it. That nobody is stuck
before is a matter of the join. A worker waits for nothing but the lock of the graph: children are handed
to the pool and left there. Whoever holds the lock does not want it, so a worker on a unit can go on, or
another one can for which it waits. Units in the queue can be begun when no worker is on a unit. Apart from
that only the caller waits, and when there are neither units nor workers the count is right, and what it
waits for is there.

Together they say that whoever moves, and whatever the listener answers, a run comes to a state from which
no move is possible, after no more moves than there was effort in the beginning, and that the caller has its
answer there.
-/
import SemiThue.Proofs.Pool.Alone
import SemiThue.Proofs.Pool.Relaxed

set_option autoImplicit false

namespace SemiThue.Exploration.Pool

variable {σ : Type} {plan : Plan σ} {trail : Trail σ} {p q : Pool σ}

/-! ## There is an end -/

/-- Reachable states are within the universe. -/
theorem Reachable.within (h : Reachable plan trail p) : p.Within plan := by
  induction h with
  | initial => exact within_initial plan trail
  | step _ move ih =>
    obtain ⟨m, hm⟩ := move
    exact (ih.move hm).1

/-- **Every move uses up some effort.** -/
theorem Reachable.effort_lt (h : Reachable plan trail p) (move : Step plan p q) :
    q.effort plan < p.effort plan := by
  obtain ⟨m, hm⟩ := move
  exact (h.within.move hm).2

theorem wellFounded_step (plan : Plan σ) (trail : Trail σ) :
    WellFounded fun q p => Reachable plan trail p ∧ Step plan p q :=
  (InvImage.wf (effort plan) Nat.lt_wfRel.wf).mono fun _ _ h => h.1.effort_lt h.2

/-! ## Nobody is stuck -/

/-- **A worker can go on, or it wants the lock and whoever holds that can go on.** -/
theorem exists_step_of_worker {w : Worker} {i : Nat} (at_i : p.crew[i]? = some w) :
    (∃ q, p.move? plan (.work i) = some q) ∨ w.wantsLock = true ∧
      ∃ j x, p.crew[j]? = some x ∧ x.holdsLock = true ∧ ∃ q, p.move? plan (.work j) = some q := by
  cases waits : w.wantsLock && p.isLocked with
  | false => exact .inl (Option.isSome_iff_exists.1 (isSome_move?_work at_i waits))
  | true =>
    obtain ⟨wants, locked⟩ := Bool.and_eq_true_iff.1 waits
    obtain ⟨x, mem, holds⟩ := List.any_eq_true.1 (Bool.and_eq_true_iff.1 locked).2
    obtain ⟨j, at_j⟩ := List.mem_iff_getElem?.1 mem
    have free : (x.wantsLock && p.isLocked) = false := by
      rw [Worker.wantsLock_of_holdsLock holds, Bool.false_and]
    exact .inr ⟨wants, j, x, at_j, holds, Option.isSome_iff_exists.1 (isSome_move?_work at_j free)⟩

/-- **There is a move exactly until the caller has its answer.** -/
theorem Reachable.exists_step_iff (h : Reachable plan trail p) :
    (∃ q, Step plan p q) ↔ p.caller ≠ .finished := by
  constructor
  · rintro ⟨q, m, hm⟩ finished
    rw [h.joined.move?_eq_none finished] at hm
    cases hm
  · intro unfinished
    by_contra none_left
    refine unfinished (h.finished_of_stuck ?_)
    cases hm : p.move? plan p.next with
    | none => rfl
    | some q => exact absurd ⟨q, p.next, hm⟩ none_left

/-! ## Both -/

/-- **No deadlock, and no endless schedule.** Whatever the plan and the listener, every move of a run leads
to a state that asks for less effort, so moves are well-founded, and a schedule has no more moves than there
was effort in the beginning. In every reachable state in which the caller has not got its answer there is a
move, and each worker on a unit has one, unless it waits for the lock of the graph, and then the holder of
the lock has one. So a state without a move has an empty queue and no worker, nothing is outstanding, and
the caller has its answer. -/
theorem every_schedule_comes_to_an_end (plan : Plan σ) (trail : Trail σ) :
    (∀ p q, Reachable plan trail p → Step plan p q → q.effort plan < p.effort plan) ∧
      (WellFounded fun q p => Reachable plan trail p ∧ Step plan p q) ∧
      (∀ ms p, (initial plan.start trail).follow? plan ms = some p →
        ms.length + p.effort plan ≤ (initial plan.start trail).effort plan) ∧
      ∀ p, Reachable plan trail p →
        (p.caller ≠ .finished → ∃ q, Step plan p q) ∧
        (∀ i w, p.crew[i]? = some w → (∃ q, p.move? plan (.work i) = some q) ∨ w.wantsLock = true ∧
          ∃ j x, p.crew[j]? = some x ∧ x.holdsLock = true ∧ ∃ q, p.move? plan (.work j) = some q) ∧
        ((¬∃ q, Step plan p q) → p.shared.queue.toList = [] ∧ p.crew = [] ∧
          p.shared.outstanding = 0 ∧ p.caller = .finished) := by
  refine ⟨fun p q h => h.effort_lt, wellFounded_step plan trail,
    fun ms p path => length_add_effort_le (within_initial plan trail) path, fun p h => ⟨?_, ?_, ?_⟩⟩
  · exact h.exists_step_iff.2
  · exact fun i w => exists_step_of_worker
  · intro stuck
    have finished : p.caller = .finished := by
      by_contra unfinished
      exact stuck (h.exists_step_iff.2 unfinished)
    obtain ⟨queue, crew⟩ := h.joined.empty (by simp [finished])
    exact ⟨queue, crew, h.joined.outstanding_eq_zero finished, finished⟩

/-- Two workers on `diamond` have both found `C` new and are about to mark it: either can move. At the end
nobody can. -/
theorem every_schedule_comes_to_an_end_diamond :
    let plan := diamond.plan { workers := some 2, atomic := false } Listener.taking.overheard ['S']
    let trail := diamond.openTrail ['S'] {} ([], ())
    let p := after plan trail (diamondMoves.take 73)
    let q := after plan trail diamondMoves
    (p.crew.map Worker.point = [.marking ['C'], .marking ['C']] ∧
        ∀ i, i < p.crew.length → ∃ r, p.move? plan (.work i) = some r) ∧
      (¬∃ r, Step plan q r) ∧ q.shared.queue.toList = [] ∧ q.crew = [] ∧ q.shared.outstanding = 0 := by
  intro plan trail p q
  have midway : Reachable plan trail p := reachable_after _ _ _
  have reachable : Reachable plan trail q := reachable_after _ _ _
  have points : p.crew.map Worker.point = [.marking ['C'], .marking ['C']] := by decide +kernel
  have finished : q.caller = .finished := by decide +kernel
  clear_value p q
  obtain ⟨-, -, -, moves⟩ := every_schedule_comes_to_an_end plan trail
  have stuck : ¬∃ r, Step plan q r := fun some_move => reachable.exists_step_iff.1 some_move finished
  obtain ⟨queue, crew, outstanding, -⟩ := (moves q reachable).2.2 stuck
  refine ⟨⟨points, fun i hi => ?_⟩, stuck, queue, crew, outstanding⟩
  rcases (moves p midway).2.1 i p.crew[i] (List.getElem?_eq_getElem hi) with goes_on | ⟨wants, -⟩
  · exact goes_on
  · -- neither of them wants the lock
    have mem : p.crew[i].point ∈ p.crew.map Worker.point := List.mem_map_of_mem (List.getElem_mem hi)
    have point : p.crew[i].point = .marking ['C'] := by simpa [points] using mem
    simp [Worker.wantsLock, point] at wants

end SemiThue.Exploration.Pool
