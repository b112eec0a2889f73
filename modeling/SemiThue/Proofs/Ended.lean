/-
How a run ends.

Both strategies end a run in the same way, by `Explorer.close`: with the fault, if there was one, and
otherwise with the report on the trail. The equations here say what is to be seen of the trail
afterwards, so that nothing has to be known about the end of a run but its trail and its fault.
-/
import SemiThue.Exploration.Explorer

set_option autoImplicit false

namespace SemiThue.Exploration.Explorer

variable {σ : Type} (e : Explorer) (start : Text) (generations : Nat) (fault : Option Fault)
  (trail : Trail σ)

theorem explorer_close : (e.close start generations fault trail).explorer = e := by
  cases fault <;> rfl

theorem heard_close : (e.close start generations fault trail).heard = trail.heard := by
  cases fault <;> rfl

theorem result_close : (e.close start generations fault trail).result =
    fault.elim (.ok (Report.ofTrail e.strategy start trail generations)) .error := by
  cases fault <;> rfl

/-! ## Sequential runs -/

section Sequential

variable (o : Sequential.Outcome σ)

theorem heard_afterSequential : (e.afterSequential start o).heard = o.state.trail.heard :=
  heard_close _ _ _ _ _

theorem outstanding_afterSequential :
    (e.afterSequential start o).explorer.outstanding = o.state.outstanding := by
  rw [afterSequential, explorer_close]

theorem recording_afterSequential : (e.afterSequential start o).explorer.recording =
    o.state.trail.graph.map .graph := by
  rw [afterSequential, explorer_close]

theorem result_afterSequential : (e.afterSequential start o).result =
    o.fault.elim (.ok (Report.ofTrail e.strategy start o.state.trail o.generations)) .error :=
  result_close _ _ _ _ _

theorem run_of_sequential (sequential : e.strategy = .sequential) (listener : Listener σ)
    (journal : Journal) (heard : σ) : e.run listener start journal heard =
      e.afterSequential start
        (Sequential.run e.scope listener start (e.openTrail start journal heard)) := by
  simp only [run, sequential]

end Sequential

/-! ## Runs on a pool -/

section Pool

variable (p : Pool σ)

theorem outstanding_afterPool :
    (e.afterPool start p).explorer.outstanding = p.shared.outstanding := by
  rw [afterPool, explorer_close]

theorem recording_afterPool : (e.afterPool start p).explorer.recording =
    p.shared.trail.graph.map .graph := by
  rw [afterPool, explorer_close]

theorem heard_afterPool : (e.afterPool start p).heard = p.shared.trail.heard :=
  heard_close _ _ _ _ _

theorem result_afterPool : (e.afterPool start p).result =
    p.shared.failure.elim (.ok (Report.ofTrail e.strategy start p.shared.trail 0)) .error :=
  result_close _ _ _ _ _

end Pool

end SemiThue.Exploration.Explorer
