/-
Explorers: a grammar, a margin and a strategy, with what is kept from run to run.

An explorer carries out one run at a time. Between runs it keeps the recording of the last one, if it
keeps recordings at all, the count of outstanding texts as the last run left it, and the failure of that
run. A run begins by putting all three back; so nothing of an earlier run can be seen in a later one.

The two strategies treat a listener's fault differently. A sequential run breaks off and hands the
fault on as it is, and the count of outstanding texts stays where it was. A run on a pool keeps the
first fault, wrapped so that it names the unit that failed, lets the units that wait pass without
effect, and hands the fault on when nothing is outstanding any more.

They also differ when they are to start from something that is no text. A pool is given checked units
only, so the start is refused before anything is touched. The sequential strategy takes it up, and
fails when the first rule is applied to it; without rules it goes through.
-/
import SemiThue.Derivation.Recording
import SemiThue.Exploration.Pool.Run
import SemiThue.Exploration.Report
import SemiThue.Exploration.Sequential
import SemiThue.Exploration.WorkItem

set_option autoImplicit false

namespace SemiThue.Exploration

/-- A grammar, a margin and a strategy, with what is kept from run to run. -/
structure Explorer where
  /-- What is explored. -/
  scope : Scope
  /-- How a run is carried out. -/
  strategy : Strategy
  /-- What was recorded of the last run, if runs are recorded. -/
  recording : Option Derivation.Recording := none
  /-- How many texts are outstanding. -/
  outstanding : Outstanding := 0
  /-- The failure of the last run on a pool. -/
  failure : Option Fault := none
deriving DecidableEq, Repr

/-- A run that has ended. -/
structure Ended (σ : Type) where
  /-- The explorer afterwards. -/
  explorer : Explorer
  /-- The journal afterwards. -/
  journal : Journal
  /-- The state of the listener afterwards. -/
  heard : σ
  /-- How the run ended. -/
  result : Except Fault Report

namespace Explorer

variable {σ : Type}

/-- The explorer as it is shown to programmers. -/
def describe (e : Explorer) : String :=
  s!"<{e.strategy.explorerName} {e.scope.grammar.describe} in_flight={e.outstanding}>"

/-- The line with which a run opens its journal. -/
def opening (e : Explorer) (start : Supplied Text) : String :=
  s!"Exploring {start.shown} with {e.scope.grammar.rules.length} rules (n={e.scope.grammar.bound}, margin={e.scope.margin}, strategy={e.strategy.name})"

/-- The trail of a run that begins. -/
def openTrail (e : Explorer) (start : Text) (journal : Journal) (heard : σ) : Trail σ where
  taken := []
  tally := {}
  graph := e.recording.map fun _ => .ofRoot start
  journal := journal.write .info .explorer (e.opening (.fitting start))
  heard

/-- The end of a run: a fault, or a report and a last line in the journal. -/
def close (e : Explorer) (start : Text) (generations : Nat) (fault : Option Fault) (trail : Trail σ) :
    Ended σ :=
  match fault with
  | some fault => ⟨e, trail.journal, trail.heard, .error fault⟩
  | none =>
    let report := Report.ofTrail e.strategy start trail generations
    ⟨e, trail.journal.write .info .explorer s!"Exploration done: {report.describe}", trail.heard,
      .ok report⟩

/-- What a run on a pool is to do. -/
def plan (e : Explorer) (crew : Crew) (listener : Listener σ) (start : Text) : Plan σ where
  scope := e.scope
  listener
  atomic := crew.atomic
  workers := crew.size
  start
  workers_pos := crew.size_pos

/-- What a sequential run comes to. -/
def afterSequential (e : Explorer) (start : Text) (o : Sequential.Outcome σ) : Ended σ :=
  { e with
    recording := o.state.trail.graph.map .graph
    outstanding := o.state.outstanding }.close start o.generations o.fault o.state.trail

/-- What a run on a pool comes to. -/
def afterPool (e : Explorer) (start : Text) (p : Pool σ) : Ended σ :=
  { e with
    recording := p.shared.trail.graph.map .graph
    outstanding := p.shared.outstanding
    failure := p.shared.failure }.close start 0 p.shared.failure p.shared.trail

/-- **Carries out a run.** -/
def run (e : Explorer) (listener : Listener σ) (start : Text) (journal : Journal) (heard : σ) :
    Ended σ :=
  let trail := e.openTrail start journal heard
  match e.strategy with
  | .sequential => e.afterSequential start (Sequential.run e.scope listener start trail)
  | .concurrent crew => e.afterPool start (Pool.run (e.plan crew listener start) trail)

/-- A sequential run from something that is no text. It can be taken up only if it can be kept in a
set, and only as long as there is no rule to apply to it. -/
def runStray (e : Explorer) (start : Foreign) (journal : Journal) (heard : σ) : Ended σ :=
  let journal := journal.write .info .explorer (e.opening (.foreign start))
  let e := { e with recording := e.recording.map fun _ => .stray start }
  if start.keyable then
    let journal := journal.write .debug .explorer (Sequential.heading 0 1)
    if e.scope.grammar.rules.isEmpty then
      let report : Report :=
        { strategy := e.strategy, start := .foreign start
          words := 0, expanded := 1, dropped := 0, unchanged := 0, generations := 1 }
      ⟨{ e with outstanding := 0 },
        journal.write .info .explorer s!"Exploration done: {report.describe}", heard, .ok report⟩
    else ⟨{ e with outstanding := 1 }, journal, heard, .error (.notRewritable start.kind)⟩
  else ⟨e, journal, heard, .error (.unkeyable start.kind)⟩

/-- Carries out a run from whatever is supplied as its start. -/
def runSupplied (e : Explorer) (listener : Listener σ) (start : Supplied Text) (journal : Journal)
    (heard : σ) : Ended σ :=
  match e.strategy with
  | .sequential =>
    match start with
    | .fitting text => e.run listener text journal heard
    | .foreign start => e.runStray start journal heard
  | .concurrent _ =>
    match rootItem start with
    | .ok text => e.run listener text journal heard
    | .error refusal => ⟨e, journal, heard, .error refusal⟩

/-- A run that cannot go on at its start for a given reason. -/
def breakOff (e : Explorer) (start : Text) (reason : Fault) (journal : Journal) (heard : σ) : Ended σ :=
  match e.strategy with
  | .sequential => ⟨{ e with outstanding := 1 }, journal, heard, .error reason⟩
  | .concurrent _ =>
    match Exploration.noteFailure start reason none journal with
    | (failure, journal) =>
      ⟨{ e with outstanding := 0, failure }, journal, heard, .error (Fault.atUnit start reason)⟩

/-- Notes a failure between runs. -/
def noteFailure (e : Explorer) (unit : Text) (fault : Fault) (journal : Journal) : Explorer × Journal :=
  match Exploration.noteFailure unit fault e.failure journal with
  | (failure, journal) => ({ e with failure }, journal)

/-- Schedules a unit on a pool that was closed: what that does to the count, and the fault. -/
def scheduleClosed (e : Explorer) (t : Text) : Explorer × Option Fault :=
  let shared : Shared Unit :=
    { queue := {}
      accepting := false
      outstanding := e.outstanding
      visited := .empty
      failure := e.failure
      trail := ⟨[], {}, none, {}, ()⟩ }
  match Shared.schedule t shared with
  | (shared, fault) => ({ e with outstanding := shared.outstanding }, fault)

end Explorer

/-- A listener that keeps the words, the newest first. -/
def collecting : Listener (List Text) := fun _ word words => (word :: words, none)

end SemiThue.Exploration
