/-
The two strategies of exploration.
-/
import SemiThue.Fault

set_option autoImplicit false

namespace SemiThue.Exploration

/-- A number of workers. There is at least one. -/
abbrev Headcount := { n : Nat // 0 < n }

/-- A single worker. -/
def Headcount.one : Headcount := ⟨1, Nat.one_pos⟩

/-- How a pool is staffed and how it treats texts that two workers come upon. -/
structure Crew where
  /-- The greatest number of workers at a time, if one was asked for. -/
  workers : Option Nat := none
  /-- A live text is looked up and marked in one move. -/
  atomic : Bool := true
  /-- The greatest number if none was asked for. It differs from machine to machine. -/
  usual : Headcount := .one
  /-- There is somebody to work. -/
  workers_pos : ∀ n ∈ workers, 0 < n := by simp
deriving DecidableEq, Repr

namespace Crew

/-- The greatest number of workers at a time. -/
def size (c : Crew) : Nat := c.workers.getD c.usual

theorem size_pos (c : Crew) : 0 < c.size := by
  unfold size
  cases h : c.workers with
  | none => exact c.usual.2
  | some n => exact c.workers_pos n (by simp [h])

/-- The crew with so many workers, unless their number is not positive. -/
def make (workers : Option Int) (atomic : Bool) (usual : Headcount := .one) : Except Fault Crew :=
  match workers with
  | none => .ok { atomic, usual }
  | some n =>
    if h : n ≤ 0 then .error (.workersNotPositive n)
    else .ok { workers := some n.toNat, atomic, usual, workers_pos := by rintro m ⟨⟩; omega }

end Crew

/-- How a run is carried out. -/
inductive Strategy where
  /-- Generation by generation. -/
  | sequential
  /-- As units of work on a pool. -/
  | concurrent (crew : Crew)
deriving DecidableEq, Repr

namespace Strategy

/-- The name under which a strategy is shown. -/
def name : Strategy → String
  | .sequential => "sequential"
  | .concurrent _ => "concurrent"

/-- The name of the explorers that follow a strategy. -/
def explorerName : Strategy → String
  | .sequential => "SequentialExplorer"
  | .concurrent _ => "ConcurrentExplorer"

/-- The number of workers that was asked for. -/
def workers : Strategy → Option Nat
  | .sequential => none
  | .concurrent crew => crew.workers

end Strategy

end SemiThue.Exploration
