/-
Runs of either strategy.

What a run comes to depends on the strategy, and on a pool on who moves when. `Explorer.Ends` says what a
run may come to. It is one of these outcomes that `Explorer.run` computes, and for the sequential
strategy there is no other.

For most purposes the two strategies need not be told apart. A sequential run is the run of a single
worker that takes the units in turn, so if it ends with a report, it ends as some run on a pool does
(`Ends.exists_pool`), and a statement about all such runs on pools is one about all such runs.

A run on a pool may end with a report though it left something out. When the listener asks to leave, a
sequential run is over, and a run on a pool goes on with the other units. So a run is called completed if it
ended with a report and every call was answered well, and then it is also a run of a listener that takes
every word (`EndsAs.obliging`).
-/
import SemiThue.Proofs.Pool.Agreement
import SemiThue.Proofs.Pool.Alone

set_option autoImplicit false

namespace SemiThue.Exploration

variable {σ : Type}

/-- The run ended with a report. -/
def Ended.Reports (ended : Ended σ) : Prop := ∃ report, ended.result = .ok report

/-- **The run was completed**: it ended with a report, and no unit was given up before it was done. -/
structure Ended.Completed (ended : Ended (Heard σ)) : Prop where
  /-- The run ended with a report. -/
  reports : ended.Reports
  /-- Every call was answered well. -/
  answered : ∀ call ∈ ended.heard.1, call.fault = none

namespace Explorer

/-- **What a run may come to.** -/
inductive Ends (e : Explorer) (listener : Listener σ) (start : Text) (journal : Journal) (heard : σ) :
    Ended σ → Prop where
  /-- A sequential run takes its course. -/
  | sequential (strategy : e.strategy = .sequential) :
      Ends e listener start journal heard
        (e.afterSequential start
          (Sequential.run e.scope listener start (e.openTrail start journal heard)))
  /-- A run on a pool may take any course that leads to an end. -/
  | concurrent {crew : Crew} (strategy : e.strategy = .concurrent crew) {p : Pool σ}
      (reachable : Pool.Reachable (e.plan crew listener start) (e.openTrail start journal heard) p)
      (finished : p.caller = .finished) :
      Ends e listener start journal heard (e.afterPool start p)

variable {e : Explorer} {listener : Listener σ} {start : Text} {journal : Journal} {heard : σ}
  {ended : Ended σ}

/-- **What is computed is what a run may come to.** -/
theorem ends_run (e : Explorer) (listener : Listener σ) (start : Text) (journal : Journal) (heard : σ) :
    e.Ends listener start journal heard (e.run listener start journal heard) := by
  cases strategy : e.strategy with
  | sequential =>
    rw [e.run_of_sequential start strategy]
    exact .sequential strategy
  | concurrent crew =>
    simp only [run, strategy]
    exact .concurrent strategy (Pool.reachable_run _ _) (Pool.finished_run _ _)

/-- A run on a pool that ended, and what it came to as far as calls, recordings and success go. -/
structure EndsAs (e : Explorer) (crew : Crew) (listener : Listener σ) (start : Text) (journal : Journal)
    (heard : σ) (p : Pool σ) (ended : Ended σ) : Prop where
  /-- The run is one on a pool with that crew. -/
  reachable : Pool.Reachable (e.plan crew listener start) (e.openTrail start journal heard) p
  /-- It came to its end. -/
  finished : p.caller = .finished
  /-- The listener is in the same state. -/
  heard_eq : ended.heard = p.shared.trail.heard
  /-- The recording is the same. -/
  recording : ended.explorer.recording = p.shared.trail.graph.map .graph
  /-- Either both ended well or neither did. -/
  reports_iff : ended.Reports ↔ p.shared.failure = none

theorem endsAs_afterPool {crew : Crew} {p : Pool σ}
    (reachable : Pool.Reachable (e.plan crew listener start) (e.openTrail start journal heard) p)
    (finished : p.caller = .finished) :
    e.EndsAs crew listener start journal heard p (e.afterPool start p) where
  reachable := reachable
  finished := finished
  heard_eq := e.heard_afterPool start p
  recording := e.recording_afterPool start p
  reports_iff := by
    rw [Ended.Reports, e.result_afterPool]
    cases p.shared.failure <;> simp

theorem reports_afterSequential_iff (e : Explorer) (start : Text) (o : Sequential.Outcome σ) :
    (e.afterSequential start o).Reports ↔ o.fault = none := by
  rw [Ended.Reports, e.result_afterSequential]
  cases o.fault <;> simp

/-- If a sequential run ends well, a run of a single worker does so with the same trail, apart from the
journal. -/
theorem exists_finished_of_run (e : Explorer) (crew : Crew) {o : Sequential.Outcome σ}
    (run : Sequential.run e.scope listener start (e.openTrail start journal heard) = o)
    (well : o.fault = none) :
    ∃ p, Pool.Reachable (e.plan crew listener start) (e.openTrail start journal heard) p ∧
      p.caller = .finished ∧ p.shared.trail.silent = o.state.trail.silent ∧ p.shared.failure = none := by
  obtain ⟨p, leads, finished, silent, failure⟩ :=
    Pool.exists_leads_finished (e.plan crew listener start) rfl run (by simp [well])
  rw [well] at failure
  exact ⟨p, Pool.Reachable.initial.leads leads, finished, silent, failure⟩

/-- **A run that ends with a report ends as some run on a pool**: if it is sequential, as the one in which a
single worker takes the units in turn. -/
theorem Ends.exists_pool (h : e.Ends listener start journal heard ended) (reports : ended.Reports) :
    ∃ crew p, e.EndsAs crew listener start journal heard p ended := by
  cases h with
  | sequential =>
    have well := (e.reports_afterSequential_iff start _).1 reports
    obtain ⟨p, reachable, finished, silent, failure⟩ := e.exists_finished_of_run {} rfl well
    obtain ⟨-, -, graph, told⟩ := Trail.silent_eq_iff.1 silent
    refine ⟨{}, p, reachable, finished, ?_, ?_, iff_of_true reports failure⟩
    · rw [e.heard_afterSequential, told]
    · rw [e.recording_afterSequential, graph]
  | concurrent _ reachable finished => exact ⟨_, _, endsAs_afterPool reachable finished⟩

/-- A run that ends with a report ends calm. -/
theorem EndsAs.calm {crew : Crew} {p : Pool σ} (h : e.EndsAs crew listener start journal heard p ended)
    (reports : ended.Reports) : p.Calm :=
  (h.reachable.calm_iff_of_finished h.finished).2 (h.reports_iff.1 reports)

end Explorer

namespace Explorer

variable {e : Explorer} {listener : Listener σ} {start : Text} {journal : Journal} {heard : σ}
  {ended : Ended (Heard σ)}

/-- **A completed run is also one of a listener that takes every word.** -/
theorem EndsAs.obliging {crew : Crew} {p : Pool (Heard σ)}
    (h : e.EndsAs crew listener.overheard start journal ([], heard) p ended) (completed : ended.Completed) :
    e.EndsAs crew listener.obliging.overheard start journal ([], heard) p ended where
  reachable := by
    have reachable : Pool.Reachable (e.plan crew listener start).overheard
        (e.openTrail start journal ([], heard)) p := h.reachable
    refine reachable.obliging ?_
    rw [Trail.calls, ← h.heard_eq]
    exact completed.answered
  finished := h.finished
  heard_eq := h.heard_eq
  recording := h.recording
  reports_iff := h.reports_iff

theorem Ends.exists_obliging (run : e.Ends listener.overheard start journal ([], heard) ended)
    (completed : ended.Completed) :
    ∃ crew p, e.EndsAs crew listener.obliging.overheard start journal ([], heard) p ended := by
  obtain ⟨crew, p, same⟩ := run.exists_pool completed.reports
  exact ⟨crew, p, same.obliging completed⟩

/-- The words told in a completed run are those that some text to be taken up gives. -/
theorem EndsAs.mem_told_iff {crew : Crew} {p : Pool (Heard σ)}
    (h : e.EndsAs crew listener.overheard start journal ([], heard) p ended) (completed : ended.Completed)
    {word : Text} : word ∈ ended.heard.1.map Call.word ↔
      ∃ t, e.scope.Reach start t ∧ word ∈ outputs .word (e.scope.applications t) := by
  have stays := listener.assents_obliging.stays
  have fresh := e.fresh_openTrail start journal heard
  have same := h.obliging completed
  have calm := same.calm completed.reports
  have reachable : Pool.Reachable (e.plan crew listener.obliging start).overheard
      (e.openTrail start journal ([], heard)) p := same.reachable
  rw [h.heard_eq]
  exact Scope.mem_told_iff (reachable.mem_taken_iff_reach stays.overheard fresh.taken h.finished calm)
    fun word => reachable.done_eq stays fresh.taken
      (done_wordLedger (e.plan crew listener.obliging start) word fresh) h.finished calm

/-- **The words told in a completed run** do not depend on the strategy, nor on who moved when. -/
theorem Ends.mem_told_iff (run : e.Ends listener.overheard start journal ([], heard) ended)
    (completed : ended.Completed) {word : Text} : word ∈ ended.heard.1.map Call.word ↔
      ∃ t, e.scope.Reach start t ∧ word ∈ outputs .word (e.scope.applications t) := by
  obtain ⟨crew, p, same⟩ := run.exists_pool completed.reports
  exact same.mem_told_iff completed

/-- **A run is completed exactly if every call was answered well.** -/
theorem Ends.completed_iff (run : e.Ends listener.overheard start journal ([], heard) ended) :
    ended.Completed ↔ ∀ call ∈ ended.heard.1, call.fault = none := by
  refine ⟨Ended.Completed.answered, fun answered => ⟨?_, answered⟩⟩
  have fresh := e.fresh_openTrail start journal heard
  cases run with
  | sequential =>
    rw [e.heard_afterSequential] at answered
    rw [reports_afterSequential_iff]
    exact (Sequential.fault_eq_none_iff fresh).2 answered
  | @concurrent crew _ p reachable finished =>
    rw [e.heard_afterPool] at answered
    rw [(endsAs_afterPool reachable finished).reports_iff]
    have overheard : Pool.Reachable (e.plan crew listener start).overheard
        (e.openTrail start journal ([], heard)) p := reachable
    refine (overheard.failure_eq_none_iff fresh.calls finished).2 fun call called => ?_
    rw [Call.failed, answered call called]
    rfl

/-- **If the listener stays, a run is completed as soon as it ends with a report.** -/
theorem Ends.completed_of_reports (stays : listener.Stays)
    (run : e.Ends listener.overheard start journal ([], heard) ended) (reports : ended.Reports) :
    ended.Completed := by
  refine ⟨reports, ?_⟩
  obtain ⟨crew, p, same⟩ := run.exists_pool reports
  have reachable : Pool.Reachable (e.plan crew listener start).overheard
      (e.openTrail start journal ([], heard)) p := same.reachable
  rw [same.heard_eq]
  exact (reachable.failure_eq_none_iff_of_stays stays (e.fresh_openTrail start journal heard).calls
    same.finished).1 (same.reports_iff.1 reports)

/-- A run on a pool whose listener refuses nothing is completed. -/
theorem completed_afterPool (assents : listener.Assents) {crew : Crew} {p : Pool (Heard σ)}
    (reachable : Pool.Reachable (e.plan crew listener.overheard start)
      (e.openTrail start journal ([], heard)) p)
    (finished : p.caller = .finished) : (e.afterPool start p).Completed := by
  have fresh := e.fresh_openTrail start journal heard
  have overheard : Pool.Reachable (e.plan crew listener start).overheard
      (e.openTrail start journal ([], heard)) p := reachable
  refine ⟨(endsAs_afterPool reachable finished).reports_iff.2 (overheard.calm assents fresh.calls).failure, ?_⟩
  rw [e.heard_afterPool]
  exact overheard.fault_eq_none assents fresh.calls

/-- A sequential run whose listener refuses nothing is completed. -/
theorem completed_run_of_sequential (sequential : e.strategy = .sequential) (assents : listener.Assents)
    (start : Text) (journal : Journal) (heard : σ) :
    (e.run listener.overheard start journal ([], heard)).Completed := by
  refine (e.ends_run _ _ _ _).completed_of_reports assents.stays ?_
  rw [e.run_of_sequential start sequential, reports_afterSequential_iff]
  exact (Sequential.exhaustive_run assents e.scope start (e.fresh_openTrail start journal heard)).1

end Explorer

end SemiThue.Exploration
