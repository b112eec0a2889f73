/-
One run on a pool, with a fixed choice of moves.

The worker that began first moves whenever there is one, unless it would have to wait for another one
that holds the lock; else a worker begins with the oldest unit of the queue; else the caller moves. So
one unit is finished before the next is begun, oldest first, and a run is determined by what it is to
do. Any other choice of moves is as good a run; this is the one that a single worker makes, and what the
number of workers cannot change is the same in all of them.
-/
import SemiThue.Exploration.Pool.Effort

set_option autoImplicit false

namespace SemiThue.Exploration.Pool

variable {σ : Type}

/-- The place of a worker that need not wait for any other: of one that holds the lock, or else the
first. -/
def foremost (p : Pool σ) : Nat := (p.crew.findIdx? Worker.holdsLock).getD 0

/-- Who moves next. -/
def next (p : Pool σ) : Move :=
  if !p.crew.isEmpty then .work p.foremost else if !p.shared.queue.isEmpty then .begin 0 else .caller

/-- Moves until no move is possible. -/
def runFrom (plan : Plan σ) (p : Pool σ) (within : p.Within plan) : Pool σ :=
  match _hm : p.move? plan p.next with
  | none => p
  | some q => runFrom plan q (within.move _hm).1
termination_by p.effort plan
decreasing_by exact (within.move _hm).2

/-- **The end of a run.** -/
def run (plan : Plan σ) (trail : Trail σ) : Pool σ :=
  runFrom plan (initial plan.start trail) (within_initial plan trail)

/-- What the run goes through is reachable. -/
theorem reachable_runFrom {plan : Plan σ} {trail : Trail σ} {p : Pool σ} (within : p.Within plan)
    (h : Reachable plan trail p) : Reachable plan trail (runFrom plan p within) := by
  fun_induction runFrom plan p within with
  | case1 => exact h
  | case2 p within q hm ih => exact ih (h.step ⟨_, hm⟩)

/-- The end of a run is one of its states. -/
theorem reachable_run (plan : Plan σ) (trail : Trail σ) : Reachable plan trail (run plan trail) :=
  reachable_runFrom _ .initial

end SemiThue.Exploration.Pool
