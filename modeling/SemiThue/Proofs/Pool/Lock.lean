/-
The lock of the graph.

A worker takes the lock when it enters a result into the graph and gives it back when it links that result;
in between it holds it (`Worker.holdsLock`). While a graph is kept, a worker that wants the lock waits until
nobody holds it. So there is one holder at most, in every reachable state, and whatever is half-done in the
graph was begun by that one worker.
-/
import SemiThue.Proofs.Pool.Charted

set_option autoImplicit false

namespace SemiThue.Exploration.Pool

variable {σ : Type} {plan : Plan σ} {trail : Trail σ} {p q : Pool σ}

/-- How many workers hold the lock. -/
def holders (p : Pool σ) : Nat := Measure.total (fun w => w.holdsLock.toNat) p.crew

theorem holders_eq_zero_iff : p.holders = 0 ↔ ∀ w ∈ p.crew, w.holdsLock = false := by
  simp [holders, Measure.total_eq_zero_iff]

/-- While a graph is kept, the lock is free as long as nobody holds it. -/
theorem isLocked_eq_false_iff (kept : p.shared.trail.graph.isSome = true) :
    p.isLocked = false ↔ ∀ w ∈ p.crew, w.holdsLock = false := by
  simp [isLocked, kept]

/-- **A move adds no second holder.** -/
theorem Turn.holders_le_one {m : Move} (turn : Turn plan p m q) (kept : p.shared.trail.graph.isSome = true)
    (few : p.holders ≤ 1) : q.holders ≤ 1 := by
  cases turn with
  | count | submit | close | finish => exact few
  | begin =>
    rw [holders, Measure.total_append]
    exact few
  | @work i w w' shared at_i turn free =>
    have crew := Measure.total_set (fun w => w.holdsLock.toNat) w' at_i
    unfold holders at *
    rcases turn.untouching_or_record with
      untouched | ⟨unit, todo, a, rfl, rfl, -⟩ | ⟨unit, todo, a, rfl, rfl, -⟩
    · simp only [untouched.holds, untouched.holds'] at crew
      exact Nat.le_trans (Nat.le_of_eq crew) few
    · -- the worker did not have to wait, so nobody held the lock
      have nobody : p.holders = 0 := holders_eq_zero_iff.2 ((isLocked_eq_false_iff kept).1 (free rfl))
      unfold holders at nobody
      rw [nobody] at crew
      exact Nat.le_trans (Nat.le_add_right _ _) (Nat.le_of_eq crew)
    · exact Nat.le_trans (Nat.le_trans (Nat.le_add_right _ _) (Nat.le_of_eq crew)) few
  | leave at_i =>
    have crew := Measure.total_eraseIdx (fun w => w.holdsLock.toNat) at_i
    exact Nat.le_trans (Nat.le_trans (Nat.le_add_right _ _) (Nat.le_of_eq crew)) few

/-- **The lock has one holder at most**, whoever moves. -/
theorem Reachable.holders_le_one (h : Reachable plan trail p) (kept : trail.graph.isSome = true) :
    p.holders ≤ 1 :=
  h.keeps (P := fun p => p.holders ≤ 1) (Nat.zero_le _)
    fun hp few turn => turn.holders_le_one (hp.isSome_graph.trans kept) few

/-- **Whoever holds the lock is alone with it.** -/
theorem Reachable.holds_alone (h : Reachable plan trail p) (kept : trail.graph.isSome = true) {i : Nat}
    {w : Worker} (at_i : p.crew[i]? = some w) (holds : w.holdsLock = true) :
    ∀ x ∈ p.crew.eraseIdx i, x.holdsLock = false := by
  have crew := Measure.total_eraseIdx (fun w => w.holdsLock.toNat) at_i
  have few := h.holders_le_one kept
  simp only [holds, Bool.toNat_true] at crew
  unfold holders at few
  have nobody : Measure.total (fun w => w.holdsLock.toNat) (p.crew.eraseIdx i) = 0 := by omega
  simpa using Measure.total_eq_zero_iff.1 nobody

end SemiThue.Exploration.Pool
