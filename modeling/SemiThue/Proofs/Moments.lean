/-
The moments of a run.

`Explorer.Passes` holds of every trail that a run shows while it is going on, whatever the strategy and
whoever moves. As with ends of runs, the strategies need not be told apart: at every moment of a sequential
run its trail is, apart from the journal, that of some state of a run on a pool, the one in which a single
worker takes the units in turn (`Passes.exists_pool`). So an invariant of the states of a pool is known at
every moment of every run.

Some moments of a run on a pool lie within a record, when a worker has entered a result and not linked it
yet. It holds the lock of the graph then, but the lock keeps nobody from looking. `Explorer.PassesUnlocked`
holds of the trails that are shown outside records. A sequential run is looked at before a record or after
it, so all its moments are outside.

A run that ends leaves its last trail behind. `Explorer.Leaves` is `Explorer.Ends` with that trail in view,
for what the end alone does not show, such as which texts were taken up.
-/
import SemiThue.Proofs.Runs
import SemiThue.Proofs.Sequential.Loop

set_option autoImplicit false

namespace SemiThue

/-- Whatever is known in both cases is known of the state at the end of an action. -/
theorem Action.Ends.fst {σ : Type} {P R : σ → Prop} {Q : σ → Fault → Prop} {x : σ × Option Fault}
    (h : Ends P Q x) (well : ∀ s, P s → R s) (ill : ∀ s fault, Q s fault → R s) : R x.1 := by
  obtain ⟨s, fault⟩ := x
  cases fault with
  | none => exact well s h
  | some fault => exact ill s fault h

namespace Exploration

variable {σ : Type}

/-! ## A single worker shows what the loop shows -/

namespace Pool

section Loops

variable {plan : Plan σ} {trail : Trail σ} {s : Shared σ} {t u : Sequential.State σ} {rest : List Text}
  {text : Text} {rule : Rule} {todo : List Rule} {p : Pool σ}

/-- Some state to which a schedule leads, and in which nobody holds the lock, has this trail, apart from the
journal. -/
def Shows (plan : Plan σ) (p : Pool σ) (trail : Trail σ) : Prop :=
  ∃ q, Leads plan p q ∧ q.isLocked = false ∧ q.shared.trail.silent = trail.silent

theorem isLocked_idle (s : Shared σ) : (idle s).isLocked = false := by
  simp [isLocked, idle]

theorem isLocked_alone {w : Worker} (free : w.holdsLock = false) (s : Shared σ) :
    (alone s w).isLocked = false := by
  simp [isLocked, alone, free]

/-- A worker that was answered with a fault does not hold the lock. -/
theorem holdsLock_afterFault (unit : Text) (todo : List Rule) (fault : Fault) :
    Worker.holdsLock ⟨unit, todo, .afterFault fault⟩ = false := by
  unfold Point.afterFault
  split <;> rfl

/-- What the loop is at after a rule, whether it goes on or not, is shown. -/
theorem shows_of_ends {P : Sequential.State σ → Prop} {x : Sequential.State σ × Option Fault}
    (h : Action.Ends P (Halts plan p) x) (well : ∀ t, P t → Shows plan p t.trail) :
    Shows plan p x.1.trail := by
  refine h.fst well fun t fault halts => ?_
  obtain ⟨s, unit, todo, rest, tracks, leads⟩ := halts.leads
  exact ⟨_, leads, isLocked_alone (holdsLock_afterFault unit todo fault) s, tracks.trail⟩

theorem shows_rulePasses (h : s.Tracks rest t)
    (leads : Leads plan p (alone s ⟨text, rule :: todo, .applying⟩))
    (passes : Sequential.RulePasses plan.scope plan.listener text rule t u) : Shows plan p u.trail := by
  have counted : Leads plan p (alone { s with trail := s.trail.counted (plan.scope.apply text rule) }
      ⟨text, todo, .recording (plan.scope.apply text rule)⟩) := leads.trans (leads_of_move rfl)
  cases passes with
  | counted => exact ⟨_, counted, isLocked_alone rfl _, congrArg (Trail.counted · _) h.trail⟩
  | recorded =>
    refine ⟨_, counted.trans (leads_recorded _), isLocked_alone rfl _, ?_⟩
    exact congrArg (fun trail => (Trail.counted trail _).recorded _) h.trail
  | announced =>
    refine ⟨_, leads.trans (leads_judged rule), isLocked_alone ?_ _, (tracks_took h _).trail⟩
    cases (plan.scope.apply text rule).verdict <;> rfl
  | settled =>
    exact shows_of_ends (leads_applyRule h rule leads) fun _ ⟨_, h, leads⟩ =>
      ⟨_, leads, isLocked_alone rfl _, h.trail⟩

theorem shows_textPasses (h : s.Tracks (text :: rest) t) (leads : Leads plan p (idle s))
    (passes : Sequential.TextPasses plan.scope plan.listener text t u) : Shows plan p u.trail := by
  cases passes with
  | opened =>
    obtain ⟨s', tracks, leads'⟩ := leads_opened h leads
    exact ⟨_, leads', isLocked_alone rfl s', tracks.trail⟩
  | rules passes =>
    exact passes.holds
      (P := fun todo t => ∃ s, s.Tracks rest t ∧ Leads plan p (alone s ⟨text, todo, .applying⟩))
      (Q := fun u => Shows plan p u.trail)
      (fun rule _ _ ⟨_, h, leads⟩ => leads_applyRule h rule leads)
      (fun _ _ _ _ ⟨_, h, leads⟩ passes => shows_rulePasses h leads passes) (leads_opened h leads)
  | done =>
    exact shows_of_ends (leads_expand h leads) fun _ ⟨_, h, leads⟩ => ⟨_, leads, isLocked_idle _, h.trail⟩

theorem shows_generationPasses {number : Nat} {stage : List Text}
    (h : s.Tracks stage { t with next := [] }) (leads : Leads plan p (idle s))
    (passes : Sequential.GenerationPasses plan.scope plan.listener number stage t u) :
    Shows plan p u.trail := by
  cases passes with
  | begun => exact ⟨_, leads, isLocked_idle s, h.trail⟩
  | texts passes =>
    exact passes.holds (P := fun stage t => ∃ s, s.Tracks stage t ∧ Leads plan p (idle s))
      (Q := fun u => Shows plan p u.trail)
      (fun _ _ _ ⟨_, h, leads⟩ => leads_expand h leads)
      (fun _ _ _ _ ⟨_, h, leads⟩ passes => shows_textPasses h leads passes)
      ⟨s, ⟨h.queue, h.accepting, h.calm, h.outstanding, h.visited, h.trail⟩, leads⟩

/-- Between two generations nobody is on a unit, and the next generation is in the queue. -/
theorem leads_reached {l : Sequential.Loop σ}
    (reached : Sequential.Reached plan.scope plan.listener plan.start trail l) :
    ∃ s : Shared σ, s.Tracks l.stage { l.state with next := [] } ∧
      Leads plan (initial plan.start trail) (idle s) := by
  induction reached with
  | first =>
    obtain ⟨s, tracks, leads⟩ := leads_start plan trail
    exact ⟨s, ⟨tracks.queue, tracks.accepting, tracks.calm, tracks.outstanding, tracks.visited,
      tracks.trail⟩, leads⟩
  | @turn l t _ _ ended ih =>
    obtain ⟨s, tracks, leads⟩ := ih
    have generation := leads_generation l.number tracks leads
    rw [ended] at generation
    obtain ⟨s', tracks', leads'⟩ := generation
    refine ⟨s', ⟨?_, tracks'.accepting, tracks'.calm, tracks'.outstanding, tracks'.visited,
      tracks'.trail⟩, leads'⟩
    simpa using tracks'.queue

/-- **Whatever a sequential run passes through, a run of a single worker shows.** -/
theorem shows_passes (plan : Plan σ)
    (passes : Sequential.Passes plan.scope plan.listener plan.start trail u) :
    Shows plan (initial plan.start trail) u.trail := by
  cases passes with
  | between reached =>
    obtain ⟨s, tracks, leads⟩ := leads_reached reached
    exact ⟨_, leads, isLocked_idle s, tracks.trail⟩
  | within reached _ passes =>
    obtain ⟨s, tracks, leads⟩ := leads_reached reached
    exact shows_generationPasses tracks leads passes

end Loops

/-- When the caller has its answer, nobody holds the lock. -/
theorem Reachable.isLocked_of_finished {plan : Plan σ} {trail : Trail σ} {p : Pool σ}
    (h : Reachable plan trail p) (finished : p.caller = .finished) : p.isLocked = false := by
  obtain ⟨-, crew⟩ := h.joined.empty (by simp [finished])
  simp [isLocked, crew]

end Pool

/-! ## Moments of runs -/

namespace Explorer

/-- **What a run passes through**: a trail that it shows at some moment. -/
inductive Passes (e : Explorer) (listener : Listener σ) (start : Text) (journal : Journal) (heard : σ) :
    Trail σ → Prop where
  /-- A sequential run is in this state. -/
  | sequential (strategy : e.strategy = .sequential) {s : Sequential.State σ}
      (passes : Sequential.Passes e.scope listener start (e.openTrail start journal heard) s) :
      Passes e listener start journal heard s.trail
  /-- A run on a pool has come to this state, whoever moved. -/
  | concurrent {crew : Crew} (strategy : e.strategy = .concurrent crew) {p : Pool σ}
      (reachable : Pool.Reachable (e.plan crew listener start) (e.openTrail start journal heard) p) :
      Passes e listener start journal heard p.shared.trail

/-- **What a run passes through outside records**: a trail that it shows while nobody holds the lock of the
graph. -/
inductive PassesUnlocked (e : Explorer) (listener : Listener σ) (start : Text) (journal : Journal)
    (heard : σ) : Trail σ → Prop where
  /-- A sequential run is in this state. -/
  | sequential (strategy : e.strategy = .sequential) {s : Sequential.State σ}
      (passes : Sequential.Passes e.scope listener start (e.openTrail start journal heard) s) :
      PassesUnlocked e listener start journal heard s.trail
  /-- A run on a pool has come to this state, whoever moved, and the lock is free. -/
  | concurrent {crew : Crew} (strategy : e.strategy = .concurrent crew) {p : Pool σ}
      (reachable : Pool.Reachable (e.plan crew listener start) (e.openTrail start journal heard) p)
      (unlocked : p.isLocked = false) : PassesUnlocked e listener start journal heard p.shared.trail

/-- **How a run may end, and with which trail.** -/
inductive Leaves (e : Explorer) (listener : Listener σ) (start : Text) (journal : Journal) (heard : σ) :
    Trail σ → Ended σ → Prop where
  /-- A sequential run takes its course. -/
  | sequential (strategy : e.strategy = .sequential) {o : Sequential.Outcome σ}
      (run : Sequential.run e.scope listener start (e.openTrail start journal heard) = o) :
      Leaves e listener start journal heard o.state.trail (e.afterSequential start o)
  /-- A run on a pool may take any course that leads to an end. -/
  | concurrent {crew : Crew} (strategy : e.strategy = .concurrent crew) {p : Pool σ}
      (reachable : Pool.Reachable (e.plan crew listener start) (e.openTrail start journal heard) p)
      (finished : p.caller = .finished) :
      Leaves e listener start journal heard p.shared.trail (e.afterPool start p)

variable {e : Explorer} {listener : Listener σ} {start : Text} {journal : Journal} {heard : σ}
  {trail : Trail σ} {ended : Ended σ}

/-- A run that ends leaves some trail. -/
theorem Ends.exists_leaves (h : e.Ends listener start journal heard ended) :
    ∃ trail, e.Leaves listener start journal heard trail ended := by
  cases h with
  | sequential strategy => exact ⟨_, .sequential strategy rfl⟩
  | concurrent strategy reachable finished => exact ⟨_, .concurrent strategy reachable finished⟩

theorem PassesUnlocked.passes (h : e.PassesUnlocked listener start journal heard trail) :
    e.Passes listener start journal heard trail := by
  cases h with
  | sequential strategy passes => exact .sequential strategy passes
  | concurrent strategy reachable _ => exact .concurrent strategy reachable

/-- A run passes through the trail that it leaves, and nobody records then. -/
theorem Leaves.passesUnlocked (h : e.Leaves listener start journal heard trail ended) :
    e.PassesUnlocked listener start journal heard trail := by
  cases h with
  | sequential strategy run =>
    subst run
    exact .sequential strategy (Sequential.passes_run _ _ _ _)
  | concurrent strategy reachable finished =>
    exact .concurrent strategy reachable (reachable.isLocked_of_finished finished)

theorem Leaves.passes (h : e.Leaves listener start journal heard trail ended) :
    e.Passes listener start journal heard trail := h.passesUnlocked.passes

/-- The recording that is kept is the graph of the trail. -/
theorem Leaves.recording (h : e.Leaves listener start journal heard trail ended) :
    ended.explorer.recording = trail.graph.map .graph := by
  cases h with
  | sequential => exact e.recording_afterSequential start _
  | concurrent => exact e.recording_afterPool start _

/-- The state of the listener that is kept is that of the trail. -/
theorem Leaves.heard_eq (h : e.Leaves listener start journal heard trail ended) :
    ended.heard = trail.heard := by
  cases h with
  | sequential => exact e.heard_afterSequential start _
  | concurrent => exact e.heard_afterPool start _

/-- **Every moment of a run is one of some run on a pool**, apart from the journal. -/
theorem Passes.exists_pool (h : e.Passes listener start journal heard trail) :
    ∃ crew p, Pool.Reachable (e.plan crew listener start) (e.openTrail start journal heard) p ∧
      p.shared.trail.silent = trail.silent := by
  cases h with
  | sequential _ passes =>
    obtain ⟨p, leads, -, same⟩ := Pool.shows_passes (e.plan {} listener start) passes
    exact ⟨{}, p, Pool.Reachable.initial.leads leads, same⟩
  | concurrent _ reachable => exact ⟨_, _, reachable, rfl⟩

/-- Outside records it is one at which nobody holds the lock. -/
theorem PassesUnlocked.exists_pool (h : e.PassesUnlocked listener start journal heard trail) :
    ∃ crew p, Pool.Reachable (e.plan crew listener start) (e.openTrail start journal heard) p ∧
      p.isLocked = false ∧ p.shared.trail.silent = trail.silent := by
  cases h with
  | sequential _ passes =>
    obtain ⟨p, leads, unlocked, same⟩ := Pool.shows_passes (e.plan {} listener start) passes
    exact ⟨{}, p, Pool.Reachable.initial.leads leads, unlocked, same⟩
  | concurrent _ reachable unlocked => exact ⟨_, _, reachable, unlocked, rfl⟩

/-- **Every end with a report is one of some run on a pool**, apart from the journal. -/
theorem Leaves.exists_pool (h : e.Leaves listener start journal heard trail ended)
    (reports : ended.Reports) :
    ∃ crew p, Pool.Reachable (e.plan crew listener start) (e.openTrail start journal heard) p ∧
      p.caller = .finished ∧ p.shared.trail.silent = trail.silent ∧ p.shared.failure = none := by
  cases h with
  | @sequential _ o run =>
    obtain ⟨p, rest⟩ :=
      e.exists_finished_of_run {} run ((e.reports_afterSequential_iff start o).1 reports)
    exact ⟨{}, p, rest⟩
  | concurrent _ reachable finished =>
    exact ⟨_, _, reachable, finished, rfl, (endsAs_afterPool reachable finished).reports_iff.1 reports⟩

/-- **Every completed end is one of some run on a pool whose listener takes every word.** -/
theorem Leaves.exists_obliging {trail : Trail (Heard σ)} {ended : Ended (Heard σ)}
    (h : e.Leaves listener.overheard start journal ([], heard) trail ended) (completed : ended.Completed) :
    ∃ crew p, Pool.Reachable (e.plan crew listener.obliging start).overheard
        (e.openTrail start journal ([], heard)) p ∧
      p.caller = .finished ∧ p.Calm ∧ p.shared.trail.silent = trail.silent := by
  obtain ⟨crew, p, reachable, finished, silent, failure⟩ := h.exists_pool completed.reports
  obtain ⟨-, -, -, same⟩ := Trail.silent_eq_iff.1 silent
  have calm := (reachable.calm_iff_of_finished finished).2 failure
  rw [e.plan_overheard] at reachable
  refine ⟨crew, p, reachable.obliging ?_, finished, calm, silent⟩
  rw [Trail.calls, same, ← h.heard_eq]
  exact completed.answered

/-- At every moment of a run only texts to be taken up were taken up. -/
theorem Passes.reach_of_mem_taken (h : e.Passes listener start journal heard trail) {t : Text}
    (taken : t ∈ trail.taken) : e.scope.Reach start t := by
  obtain ⟨crew, p, reachable, silent⟩ := h.exists_pool
  obtain ⟨same, -⟩ := Trail.silent_eq_iff.1 silent
  have sound := reachable.sound rfl
  exact sound.reach t (sound.taken t (same ▸ taken))

/-- **At every moment of a run only words were told that some text taken up by then gives.** -/
theorem Passes.exists_taken_of_mem_told {trail : Trail (Heard σ)}
    (h : e.Passes listener.overheard start journal ([], heard) trail) {word : Text}
    (told : word ∈ trail.told) :
    ∃ t ∈ trail.taken, word ∈ outputs .word (e.scope.applications t) := by
  obtain ⟨crew, p, reachable, silent⟩ := h.exists_pool
  obtain ⟨taken, -, -, calls⟩ := Trail.silent_eq_iff.1 silent
  rw [e.plan_overheard] at reachable
  have told : word ∈ p.shared.trail.told := by
    rw [Trail.told, Trail.calls, calls]
    exact told
  have made := reachable.exists_taken_of_mem_told (e.fresh_openTrail start journal heard) told
  rw [taken] at made
  exact made

end Explorer

end Exploration

end SemiThue
