/-
The statistics of a completed run.

The report of a run, its listener, its recording and its claims each count for themselves, at different
moments and under different locks. At the end they have to agree, and they do: what was under way while the
run went on has arrived (`Proofs.Pool.Census`), every rule was applied to every text taken up, and every text
but the start was taken up because it was claimed.

For all of this but the claims a sequential run is some run on a pool. Claims are not seen at the end of a
run, so `Explorer.Completes` has them in view: it is `Explorer.Leaves` for a completed run, with the turns of
the loop or the schedule of the pool along which they are counted.
-/
import SemiThue.Proofs.Moments
import SemiThue.Proofs.Pool.Census
import SemiThue.Proofs.Pool.Charted
import SemiThue.Proofs.Pool.Relaxed
import SemiThue.Proofs.Sequential.Claims

set_option autoImplicit false

namespace SemiThue.Exploration

variable {σ : Type}

/-! ## Every application gets one verdict -/

theorem length_outputs (applications : List Application) :
    (outputs .word applications).length + (outputs .dropped applications).length +
        (outputs .unchanged applications).length + (outputs .live applications).length =
      applications.length := by
  induction applications with
  | nil => rfl
  | cons a applications ih =>
    simp only [outputs_cons, List.length_append, List.length_cons]
    cases a.verdict <;> simp only [reduceCtorEq, if_true, if_false, List.length_singleton, List.length_nil] <;>
      omega

/-- **Each rule gives each text one verdict.** -/
theorem Scope.total_yield (scope : Scope) (texts : List Text) :
    Measure.total (scope.yield .word) texts + Measure.total (scope.yield .dropped) texts +
        Measure.total (scope.yield .unchanged) texts + Measure.total (scope.yield .live) texts =
      texts.length * scope.grammar.rules.length := by
  induction texts with
  | nil => simp
  | cons t texts ih =>
    have one := length_outputs (scope.applications t)
    have rules : (scope.applications t).length = scope.grammar.rules.length := List.length_map _
    simp only [Measure.total_cons, List.length_cons, Nat.succ_mul, Scope.yield]
    omega

namespace Explorer

variable {e : Explorer} {listener : Listener σ} {start : Text} {journal : Journal} {heard : σ}
  {trail : Trail (Heard σ)} {claims : Nat} {ended : Ended (Heard σ)}

/-! ## Completed runs and their claims -/

/-- **How a run may be completed**: with which trail, and after how many claims. -/
inductive Completes {τ : Type} (e : Explorer) (listener : Listener (Heard τ)) (start : Text)
    (journal : Journal) (heard : Heard τ) : Trail (Heard τ) → Nat → Ended (Heard τ) → Prop where
  /-- The loop of a sequential run has come to where nothing is left. -/
  | sequential (strategy : e.strategy = .sequential) {l : Sequential.Loop (Heard τ)} {claims : Nat}
      (claimed : Sequential.Claims e.scope listener start (e.openTrail start journal heard) l claims)
      (done : l.stage = [])
      (run : Sequential.run e.scope listener start (e.openTrail start journal heard) =
        ⟨l.state, l.number, none⟩) :
      Completes e listener start journal heard l.state.trail claims
        (e.afterSequential start ⟨l.state, l.number, none⟩)
  /-- Some schedule has led a run on a pool to its end, and every call was answered well. -/
  | concurrent {crew : Crew} (strategy : e.strategy = .concurrent crew) {schedule : List Move}
      {p : Pool (Heard τ)}
      (follows : (Pool.initial start (e.openTrail start journal heard)).follow?
        (e.plan crew listener start) schedule = some p)
      (finished : p.caller = .finished) (answered : ∀ call ∈ p.shared.trail.calls, call.fault = none) :
      Completes e listener start journal heard p.shared.trail
        ((Pool.initial start (e.openTrail start journal heard)).claims (e.plan crew listener start) schedule)
        (e.afterPool start p)

/-- **Every completed run is completed in such a way.** -/
theorem Ends.exists_completes (run : e.Ends listener.overheard start journal ([], heard) ended)
    (completed : ended.Completed) :
    ∃ trail claims, e.Completes listener.overheard start journal ([], heard) trail claims ended := by
  cases run with
  | sequential strategy =>
    obtain ⟨l, reached, done, run⟩ := Sequential.exists_reached_of_fault_eq_none
      ((e.reports_afterSequential_iff start _).1 completed.reports)
    obtain ⟨n, claimed⟩ := reached.exists_claims
    rw [run]
    exact ⟨_, _, .sequential strategy claimed done run⟩
  | concurrent strategy reachable finished =>
    obtain ⟨schedule, follows⟩ := Pool.reachable_iff_exists_schedule.1 reachable
    refine ⟨_, _, .concurrent strategy follows finished ?_⟩
    rw [Trail.calls, ← e.heard_afterPool start]
    exact completed.answered

namespace Completes

/-- A run that is completed ends, and leaves its trail. -/
theorem leaves (h : e.Completes listener.overheard start journal ([], heard) trail claims ended) :
    e.Leaves listener.overheard start journal ([], heard) trail ended := by
  cases h with
  | sequential strategy _ _ run => exact .sequential strategy run
  | concurrent strategy follows finished =>
    exact .concurrent strategy (Pool.Reachable.initial.follow follows) finished

/-- No unit was given up. -/
theorem completed (h : e.Completes listener.overheard start journal ([], heard) trail claims ended) :
    ended.Completed := by
  cases h with
  | sequential _ _ _ run =>
    rw [← run]
    have well := (Sequential.fault_eq_none_iff (e.fresh_openTrail start journal heard)).1 (by rw [run])
    exact ⟨(e.reports_afterSequential_iff start _).2 (by rw [run]), (e.heard_afterSequential start _) ▸ well⟩
  | concurrent strategy follows finished answered =>
    have reachable := Pool.Reachable.initial.follow follows
    refine (Ends.concurrent strategy reachable finished).completed_iff.2 ?_
    rwa [e.heard_afterPool]

/-- The report is that on the trail. -/
theorem exists_result (h : e.Completes listener.overheard start journal ([], heard) trail claims ended) :
    ∃ generations, ended.result = .ok (Report.ofTrail e.strategy start trail generations) := by
  have reports := h.completed.reports
  cases h with
  | sequential => exact ⟨_, e.result_afterSequential start _⟩
  | concurrent _ follows finished =>
    have well := (endsAs_afterPool (Pool.Reachable.initial.follow follows) finished).reports_iff.1 reports
    refine ⟨0, (e.result_afterPool start _).trans ?_⟩
    rw [well]
    rfl

/-- **Every text but the start was claimed before it was taken up**, and every claimed text was. -/
theorem expanded_eq (h : e.Completes listener.overheard start journal ([], heard) trail claims ended) :
    trail.expanded = 1 + claims := by
  have reports := h.completed.reports
  cases h with
  | sequential _ claimed done =>
    have taken_up := claimed.expanded_add_length rfl
    rwa [done, List.length_nil, Nat.add_zero] at taken_up
  | concurrent _ follows finished =>
    have calm := (endsAs_afterPool (Pool.Reachable.initial.follow follows) finished).calm reports
    exact Pool.expanded_eq rfl follows finished calm

end Completes

/-- As many calls were made as words were counted. -/
theorem Leaves.length_calls
    (run : e.Leaves listener.overheard start journal ([], heard) trail ended) (reports : ended.Reports) :
    ended.heard.1.length = trail.tally.words := by
  obtain ⟨crew, p, reachable, finished, silent, -⟩ := run.exists_pool reports
  obtain ⟨-, tally, -, same_calls⟩ := Trail.silent_eq_iff.1 silent
  have reachable : Pool.Reachable (e.plan crew listener start).overheard
      (e.openTrail start journal ([], heard)) p := reachable
  have words : p.shared.trail.calls.length = p.shared.trail.tally.words := by
    refine reachable.arrived_eq_counted (wordTransit (e.plan crew listener start)) ?_ finished rfl
    intro n arrived
    obtain rfl := Option.some.inj arrived
    rfl
  rw [Trail.calls, same_calls, tally] at words
  rw [run.heard_eq]
  exact words

/-- **The statistics lose no event.** Let a run be completed, whatever its strategy, the number of its
workers, the mode and the schedule. It has a report. As many words are reported as calls were made. Words,
dropped results, unchanged results and live ones together are as many as there are rules for each text taken
up; live results are those that the rules make of these texts. If a recording is kept, it has skipped as
many results as the report says. And one text more was taken up than claimed. -/
theorem statistics_lose_no_event
    (run : e.Completes listener.overheard start journal ([], heard) trail claims ended) :
    ∃ report, ended.result = .ok report ∧
      report.words = ended.heard.1.length ∧
      report.words + report.dropped + report.unchanged + trail.tally.live =
        report.expanded * e.scope.grammar.rules.length ∧
      trail.tally.live = Measure.total (e.scope.yield .live) trail.taken ∧
      (e.recording.isSome = true → ∃ g, ended.explorer.recording = some (.graph g) ∧
        g.skipped .unchanged = report.unchanged ∧ g.skipped .dropped = report.dropped) ∧
      report.expanded = 1 + claims := by
  obtain ⟨generations, result⟩ := run.exists_result
  -- but for its claims the run is one on a pool, which has ended calm, and nobody left a unit
  obtain ⟨crew, p, reachable, finished, calm, silent⟩ := run.leaves.exists_obliging run.completed
  obtain ⟨taken, tally, graph, -⟩ := Trail.silent_eq_iff.1 silent
  have stays := listener.assents_obliging.stays
  have fresh := e.fresh_openTrail start journal heard
  have verdicts (v : Verdict) : trail.tally.ofVerdict v = Measure.total (e.scope.yield v) trail.taken := by
    rw [← tally, ← taken]
    exact reachable.done_eq stays fresh.taken (done_countLedger _ v fresh) finished calm
  refine ⟨_, result, ?_, ?_, verdicts .live, fun recorded => ?_, ?_⟩
  · exact congrArg Nat.cast (run.leaves.length_calls run.completed.reports).symm
  · have all := e.scope.total_yield trail.taken
    rw [← verdicts, ← verdicts, ← verdicts, ← verdicts] at all
    have all : trail.tally.words + trail.tally.dropped + trail.tally.unchanged + trail.tally.live =
        trail.expanded * e.scope.grammar.rules.length := all
    simp only [Report.ofTrail]
    exact_mod_cast all
  · obtain ⟨g, kept⟩ := exists_graph reachable recorded
    have skipped {v : Verdict} (no_word : v ≠ .word) (not_live : v ≠ .live) :
        g.skipped v = trail.tally.ofVerdict v := by
      rw [← tally]
      refine reachable.arrived_eq_counted (skipTransit _ no_word not_live) ?_ finished
        (Option.map_eq_some_iff.2 ⟨g, kept, rfl⟩)
      intro n arrived
      obtain ⟨g, opened, rfl⟩ := Option.map_eq_some_iff.1 arrived
      rw [e.blank_openTrail start journal ([], heard) g opened]
      cases v <;> rfl
    refine ⟨g, ?_, congrArg Nat.cast (skipped (v := .unchanged) (by decide) (by decide)),
      congrArg Nat.cast (skipped (v := .dropped) (by decide) (by decide))⟩
    rw [run.leaves.recording, ← graph, kept]
    rfl
  · simp only [Report.ofTrail]
    exact_mod_cast run.expanded_eq

/-- In the run on `Pool.diamond` in which `C` is claimed twice there are four claims and five texts taken up,
and the report balances. So does that of a sequential run over `Scope.converging`. -/
theorem statistics_lose_no_event_diamond :
    let e : Explorer := { Pool.diamond with recording := some .empty }
    let plan := e.plan { workers := some 2, atomic := false } Listener.taking.overheard ['S']
    let trail := e.openTrail ['S'] {} ([], ())
    let p := Pool.after plan trail Pool.diamondMoves
    let ended := e.afterPool ['S'] p
    let e' : Explorer := { scope := .converging, strategy := .sequential }
    let ended' := e'.run Listener.taking.overheard ['S'] {} ([], ())
    ((Pool.initial ['S'] trail).claims plan Pool.diamondMoves = 4 ∧
      ∃ report g, ended.result = .ok report ∧ report.expanded = 5 ∧
        report.words = ended.heard.1.length ∧ ended.explorer.recording = some (.graph g) ∧
        g.skipped .unchanged = report.unchanged) ∧
      ∃ report claims trail, ended'.result = .ok report ∧ report.words = ended'.heard.1.length ∧
        e'.Completes Listener.taking.overheard ['S'] {} ([], ()) trail claims ended' ∧
        report.expanded = 1 + claims := by
  intro e plan trail p ended e' ended'
  have claims : (Pool.initial ['S'] trail).claims plan Pool.diamondMoves = 4 := by decide +kernel
  have possible : ((Pool.initial ['S'] trail).follow? plan Pool.diamondMoves).isSome = true := by
    decide +kernel
  have follows : (Pool.initial ['S'] trail).follow? plan Pool.diamondMoves = some p :=
    (Option.some_get possible).symm.trans (congrArg some (Option.get_eq_getD ..))
  have finished : p.caller = .finished := by decide +kernel
  have answered : ∀ call ∈ p.shared.trail.calls, call.fault = none := by decide +kernel
  clear_value p
  have run : e.Completes Listener.taking.overheard ['S'] {} ([], ()) p.shared.trail 4 ended := by
    rw [← claims]
    exact .concurrent rfl follows finished answered
  obtain ⟨report, result, words, -, -, recorded, expanded⟩ := statistics_lose_no_event run
  obtain ⟨g, recording, unchanged, -⟩ := recorded rfl
  obtain ⟨trail', claims', run'⟩ := (e'.ends_run _ _ _ _).exists_completes
    (completed_run_of_sequential rfl Listener.assents_taking ['S'] {} ())
  obtain ⟨report', result', words', -, -, -, expanded'⟩ := statistics_lose_no_event run'
  exact ⟨⟨claims, report, g, result, expanded, words, recording, unchanged⟩,
    report', claims', trail', result', words', run', expanded'⟩

end Explorer

end SemiThue.Exploration
