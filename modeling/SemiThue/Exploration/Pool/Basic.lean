/-
The concurrent strategy: units of work on a pool, as a transition system.

Every live text is a unit of work of its own. A crew of at most so many workers takes units from a
queue; a worker applies the rules to its unit, tells words, and schedules the live texts it comes upon
first. The caller of the run schedules the start, waits until nothing is outstanding, closes the pool,
and waits for the crew.

What makes concurrency hard is when each thing happens, so a state says for every worker at which
point it stands, and a move takes one worker, or the caller, over one point: each move is one of the
moments that a lock makes indivisible. Nothing is said about who moves next. A run is any sequence of
moves, and `Pool.move?` is the whole semantics; the strategy that the program itself follows is one
choice of moves among all (`Pool.Run`).

Two modes decide how a live text is claimed. In the atomic mode, looking it up and marking it as
visited is one move. In the relaxed mode it is two, and two workers can both find a text new.

The graph has a lock, which a worker holds while it records: it enters the result in one move and links
it in the next, and no other worker records in between. But the lock keeps nobody from reading, and
what is read in between is the graph of that state.

A worker notes the failures of the listener. If the listener asks to leave, that is no failure: the
worker leaves its unit where it is and nothing is noted, and the run goes on without it.
-/
import SemiThue.Exploration.Queue
import SemiThue.Exploration.Trail
import SemiThue.Exploration.Visited

set_option autoImplicit false

namespace SemiThue.Exploration

/-! ## Workers -/

/-- The point at which a worker stands: what it does next. -/
inductive Point where
  /-- Looks whether a failure was noted already, and leaves if so. -/
  | entering
  /-- Counts its unit as taken up. -/
  | opening
  /-- Applies the next rule and counts the result, or leaves if there is no rule left. -/
  | applying
  /-- Takes the lock of the graph, and enters the result of the application. -/
  | recording (a : Application)
  /-- Links the result that it has entered, and gives the lock back. -/
  | linking (a : Application)
  /-- Announces the application in the journal. -/
  | announcing (a : Application)
  /-- Tells a word to the listener. -/
  | telling (word : Text)
  /-- Looks a live text up; in the atomic mode marks it as visited at once if it is new. -/
  | claiming (t : Text)
  /-- Marks a live text as visited, having found it new before. -/
  | marking (t : Text)
  /-- Looks whether a failure was noted meanwhile, and gives the text up if so. -/
  | checking (t : Text)
  /-- Counts the text as outstanding. -/
  | counting (t : Text)
  /-- Hands the text to the pool. -/
  | submitting (t : Text)
  /-- Notes a failure. -/
  | failing (fault : Fault)
  /-- Counts its own unit as outstanding no more, and is done. -/
  | leaving
deriving DecidableEq, Repr

/-- What a worker does next when its listener has answered with a fault: it notes a failure, and simply
leaves otherwise. -/
def Point.afterFault (fault : Fault) : Point :=
  if fault.isFailure then .failing fault else .leaving

theorem Point.afterFault_of_failure {fault : Fault} (failure : fault.isFailure = true) :
    afterFault fault = .failing fault := if_pos failure

theorem Point.afterFault_of_exit {fault : Fault} (exit : fault.isFailure = false) :
    afterFault fault = .leaving := if_neg (by simp [exit])

theorem Point.afterFault_eq_failing_iff {fault noted : Fault} :
    afterFault fault = .failing noted ↔ fault = noted ∧ fault.isFailure = true := by
  cases hf : fault.isFailure with
  | true => simp [afterFault_of_failure hf]
  | false => simp [afterFault_of_exit hf]

/-- A worker on a unit of work. -/
structure Worker where
  /-- The text being taken up. -/
  unit : Text
  /-- The rules that were not applied to it yet. -/
  todo : List Rule
  /-- What the worker does next. -/
  point : Point
deriving DecidableEq, Repr

namespace Worker

/-- The worker is about to take the lock of the graph. -/
def wantsLock (w : Worker) : Bool :=
  match w.point with
  | .recording _ => true
  | _ => false

/-- The worker holds the lock of the graph. -/
def holdsLock (w : Worker) : Bool :=
  match w.point with
  | .linking _ => true
  | _ => false

/-- Whoever holds the lock does not want it. -/
theorem wantsLock_of_holdsLock {w : Worker} (holds : w.holdsLock = true) : w.wantsLock = false := by
  unfold holdsLock at holds
  unfold wantsLock
  split at holds
  · rename_i point
    simp [point]
  · cases holds

end Worker

/-- Where the caller of the run stands. -/
inductive Caller where
  /-- Counts the start as outstanding. -/
  | counting
  /-- Hands the start to the pool. -/
  | submitting
  /-- Waits until nothing is outstanding, then closes the pool. -/
  | waiting
  /-- Waits until all workers are gone and the queue is empty. -/
  | closing
  /-- Has its answer. -/
  | finished
deriving DecidableEq, Repr

/-! ## States -/

/-- What all workers share. -/
structure Shared (σ : Type) where
  /-- The units handed to the pool and not begun. -/
  queue : Queue Text
  /-- The pool takes units. -/
  accepting : Bool
  /-- How many units were counted as outstanding and are not done. -/
  outstanding : Outstanding
  /-- The texts come upon so far. -/
  visited : Visited
  /-- The failure that the run will report, if there was one. -/
  failure : Option Fault
  /-- What the run leaves behind. -/
  trail : Trail σ

/-- A state of a run. -/
structure Pool (σ : Type) where
  /-- What all workers share. -/
  shared : Shared σ
  /-- The workers that are on a unit. -/
  crew : List Worker
  /-- Where the caller stands. -/
  caller : Caller

/-- What a run is to do. -/
structure Plan (σ : Type) where
  /-- What is explored. -/
  scope : Scope
  /-- Who is told the words. -/
  listener : Listener σ
  /-- A live text is looked up and marked in one move. -/
  atomic : Bool
  /-- The greatest number of workers at a time. -/
  workers : Nat
  /-- The text to start from. -/
  start : Text
  /-- There is somebody to work. -/
  workers_pos : 0 < workers

/-! ## Failures

The first failure of a run is kept and reported as an error; any later one only leaves a line in the
journal. -/

/-- Notes a failure at a unit: the failure to report, and the line of the journal about it. -/
def noteFailure (unit : Text) (fault : Fault) (kept : Option Fault) (journal : Journal) :
    Option Fault × Journal :=
  match kept with
  | none =>
    (some (fault.atUnit unit),
      journal.write .error .explorer s!"Unit failed on {unit.quoted}: {fault.message}")
  | some first =>
    (some first,
      journal.write .debug .explorer
        s!"Further failure on {unit.quoted} suppressed: {fault.message}")

namespace Shared

variable {σ : Type}

/-- Counts a unit more as outstanding. -/
def countUp (s : Shared σ) : Shared σ := { s with outstanding := s.outstanding.up }

/-- Counts a unit less as outstanding. -/
def countDown (s : Shared σ) : Shared σ := { s with outstanding := s.outstanding.down }

/-- Hands a unit to the pool, if the pool still takes units. -/
def submit? (s : Shared σ) (t : Text) : Option (Shared σ) :=
  if s.accepting then some { s with queue := s.queue.push t } else none

/-- Schedules a unit: counts it, hands it to the pool, and takes the count back if that fails. -/
def schedule (t : Text) : Action (Shared σ) := fun s =>
  match s.countUp.submit? t with
  | some s => (s, none)
  | none => (s.countUp.countDown, some .poolClosed)

/-- Notes a failure at a unit. -/
def fail (s : Shared σ) (unit : Text) (fault : Fault) : Shared σ :=
  match noteFailure unit fault s.failure s.trail.journal with
  | (failure, journal) => { s with failure, trail := { s.trail with journal } }

end Shared

/-! ## Moves -/

/-- A move of one worker over its point: what is shared then, and the worker, unless it is gone. -/
def Worker.move {σ : Type} (plan : Plan σ) (w : Worker) (s : Shared σ) : Shared σ × Option Worker :=
  let moved (point : Point) : Option Worker := some { w with point }
  match w.point with
  | .entering => (s, moved (if s.failure.isSome then .leaving else .opening))
  | .opening => ({ s with trail := s.trail.opened w.unit }, moved .applying)
  | .applying =>
    match w.todo with
    | [] => (s, moved .leaving)
    | rule :: todo =>
      let a := plan.scope.apply w.unit rule
      ({ s with trail := s.trail.counted a }, some { w with todo, point := .recording a })
  | .recording a => ({ s with trail := s.trail.entered a }, moved (.linking a))
  | .linking a => ({ s with trail := s.trail.linked a }, moved (.announcing a))
  | .announcing a =>
    ({ s with trail := s.trail.announced a },
      moved (match a.verdict with
        | .word => .telling a.step.output
        | .live => .claiming a.step.output
        | .dropped | .unchanged => .applying))
  | .telling word =>
    match Trail.tell plan.listener s.outstanding word s.trail with
    | (trail, none) => ({ s with trail }, moved .applying)
    | (trail, some fault) => ({ s with trail }, moved (.afterFault fault))
  | .claiming t =>
    match s.visited.claim? t with
    | none => (s, moved .applying)
    | some visited => if plan.atomic then ({ s with visited }, moved (.checking t)) else (s, moved (.marking t))
  | .marking t => ({ s with visited := s.visited.insert t }, moved (.checking t))
  | .checking t => (s, moved (if s.failure.isSome then .applying else .counting t))
  | .counting t => (s.countUp, moved (.submitting t))
  | .submitting t =>
    match s.submit? t with
    | some s => (s, moved .applying)
    | none => (s.countDown, moved (.failing .poolClosed))
  | .failing fault => (s.fail w.unit fault, moved .leaving)
  | .leaving => (s.countDown, none)

/-- A choice of who moves. -/
inductive Move where
  /-- The caller. -/
  | caller
  /-- A new worker begins with the unit at this place of the queue. -/
  | begin (i : Nat)
  /-- The worker at this place of the crew. -/
  | work (i : Nat)
deriving DecidableEq, Repr

namespace Pool

variable {σ : Type}

/-- Some worker holds the lock of the graph. Without a graph there is no lock. -/
def isLocked (p : Pool σ) : Bool := p.shared.trail.graph.isSome && p.crew.any Worker.holdsLock

/-- **The state after a move**, if the move is possible. -/
def move? (plan : Plan σ) (p : Pool σ) : Move → Option (Pool σ)
  | .caller =>
    match p.caller with
    | .counting => some { p with shared := p.shared.countUp, caller := .submitting }
    | .submitting =>
      some { p with
        shared := { p.shared with queue := p.shared.queue.push plan.start }
        caller := .waiting }
    | .waiting =>
      if p.shared.outstanding.isSettled then
        some { p with shared := { p.shared with accepting := false }, caller := .closing }
      else none
    | .closing => if p.crew.isEmpty && p.shared.queue.isEmpty then some { p with caller := .finished } else none
    | .finished => none
  | .begin i =>
    match p.shared.queue.take? i with
    | some (unit, queue) =>
      if p.crew.length < plan.workers then
        some { p with
          shared := { p.shared with queue }
          crew := p.crew ++ [⟨unit, plan.scope.grammar.rules, .entering⟩] }
      else none
    | none => none
  | .work i =>
    match p.crew[i]? with
    | some w =>
      if w.wantsLock && p.isLocked then none
      else
        match w.move plan p.shared with
        | (shared, some w) => some { p with shared, crew := p.crew.set i w }
        | (shared, none) => some { p with shared, crew := p.crew.eraseIdx i }
    | none => none

/-- One state may follow another. -/
def Step (plan : Plan σ) (p q : Pool σ) : Prop := ∃ m, p.move? plan m = some q

/-- The state in which a run begins. -/
def initial (start : Text) (trail : Trail σ) : Pool σ where
  shared :=
    { queue := {}
      accepting := true
      outstanding := 0
      visited := Visited.ofList [start]
      failure := none
      trail }
  crew := []
  caller := .counting

/-- A state that some run from the beginning passes through. -/
inductive Reachable (plan : Plan σ) (trail : Trail σ) : Pool σ → Prop where
  /-- The beginning is reachable. -/
  | initial : Reachable plan trail (initial plan.start trail)
  /-- What follows a reachable state is reachable. -/
  | step {p q : Pool σ} : Reachable plan trail p → Step plan p q → Reachable plan trail q

end Pool

end SemiThue.Exploration
