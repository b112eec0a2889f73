/-
Runs on a pool agree with sequential runs.

When the caller has its answer, the queue is empty and no worker is left. So nothing is in anybody's
custody, no worker owes anything, and no live text is with a worker. If the run stayed calm, and no unit
was left by its listener, nothing was lost on the way; and in the atomic mode nothing was copied. What
remains of the three invariants is that the trail is exhaustive, as it is after a sequential run, and two
exhaustive trails agree.
-/
import SemiThue.Proofs.Pool.Custody
import SemiThue.Proofs.Pool.Ledger
import SemiThue.Proofs.Sequential.Exhaustive

set_option autoImplicit false

namespace SemiThue.Exploration.Pool

variable {σ τ : Type}

/-! ## The end of a calm run -/

section Taken

variable {plan : Plan σ} {trail : Trail σ} {p : Pool σ}

/-- In either mode the texts taken up in a calm run are those come upon. -/
theorem Reachable.mem_taken_iff (fresh : trail.taken = []) (h : Reachable plan trail p)
    (finished : p.caller = .finished) (calm : p.Calm) {t : Text} :
    t ∈ p.shared.trail.taken ↔ t ∈ p.shared.visited := by
  refine ⟨(h.sound fresh).taken t, fun visited => ?_⟩
  obtain ⟨queue, crew⟩ := h.joined.empty (by simp [finished])
  obtain ⟨lost, copied, places, none_lost, -⟩ := h.kept fresh t
  have hl := none_lost calm
  simp only [Pool.places, finished, Caller.holds, queue, crew, List.count_nil, Measure.total_nil,
    Visited.count_of_mem visited] at places
  rw [← List.count_pos_iff]
  omega

/-- The texts taken up in a calm run are those to be taken up. -/
theorem Reachable.mem_taken_iff_reach (stays : plan.listener.Stays) (fresh : trail.taken = [])
    (h : Reachable plan trail p) (finished : p.caller = .finished) (calm : p.Calm) (t : Text) :
    t ∈ p.shared.trail.taken ↔ plan.scope.Reach plan.start t := by
  have sound := h.sound fresh
  rw [h.mem_taken_iff fresh finished calm]
  refine ⟨sound.reach t, fun reach => ?_⟩
  -- the texts come upon hold the start and are closed, as all live texts were claimed
  refine reach.mem_of_closed (P := (· ∈ p.shared.visited)) sound.start ?_
  intro s hs u hu
  exact h.done_of_finished (liveDuty _) stays fresh finished calm
    ((h.mem_taken_iff fresh finished calm).2 hs) hu

end Taken

section Calm

variable {plan : Plan σ} {trail : Trail (Heard σ)} {p : Pool (Heard σ)}

/-- When the caller has its answer nobody owes anything, so what was done is what was due. -/
theorem Reachable.done_eq {ledger : Ledger plan.overheard} (stays : plan.listener.Stays)
    (fresh : trail.taken = []) (none_done : ledger.done trail = 0)
    (h : Reachable plan.overheard trail p) (finished : p.caller = .finished) (calm : p.Calm) :
    ledger.done p.shared.trail = Measure.total ledger.due p.shared.trail.taken := by
  obtain ⟨-, crew⟩ := h.joined.empty (by simp [finished])
  obtain ⟨lost, balance, none_lost⟩ := h.balanced fresh none_done
  have hl := none_lost stays.overheard calm
  rw [crew, Measure.total_nil] at balance
  omega

/-- **A run that ends calm leaves nothing out and does nothing twice**, in the atomic mode. -/
theorem Reachable.exhaustive (stays : plan.listener.Stays) (fresh : trail.Fresh)
    (atomic : plan.atomic = true) (h : Reachable plan.overheard trail p)
    (finished : p.caller = .finished) (calm : p.Calm) : Exhaustive plan.scope plan.start p.shared.trail where
  nodup := h.nodup_taken fresh.taken atomic
  mem_taken := h.mem_taken_iff_reach stays.overheard fresh.taken finished calm
  tally v := h.done_eq stays fresh.taken (done_countLedger plan.overheard v fresh) finished calm
  told word := h.done_eq stays fresh.taken (done_wordLedger plan word fresh) finished calm

end Calm

/-! ## The two strategies -/

/-- **Both strategies do the same work.** Let a listener that refuses nothing be told the words of a run
on a pool in the atomic mode, with any number of workers and in any order of moves, and let such a
listener be told those of a sequential run over the same grammar and margin from the same start. When the
caller of the pool has its answer, it is a report with the same numbers as that of the sequential run; the
same words were told equally often; and the same texts were taken up, each once. -/
theorem report_agrees_with_sequential {e e' : Explorer} (scope : e'.scope = e.scope)
    (sequential : e'.strategy = .sequential) {crew : Crew} (atomic : crew.atomic = true)
    {listener : Listener σ} (assents : listener.Assents) {listener' : Listener τ}
    (assents' : listener'.Assents) (start : Text) (journal journal' : Journal) (heard : σ) (heard' : τ)
    {p : Pool (Heard σ)}
    (reachable : Reachable (e.plan crew listener.overheard start)
      (e.openTrail start journal ([], heard)) p)
    (finished : p.caller = .finished) :
    let ended := e.afterPool start p
    let outcome := Sequential.run e'.scope listener'.overheard start
      (e'.openTrail start journal' ([], heard'))
    let ended' := e'.run listener'.overheard start journal' ([], heard')
    ended' = e'.afterSequential start outcome ∧
      (ended.heard.1.map Call.word).Perm (ended'.heard.1.map Call.word) ∧
      p.shared.trail.taken.Nodup ∧ outcome.state.trail.taken.Nodup ∧
      (∀ t, t ∈ p.shared.trail.taken ↔ t ∈ outcome.state.trail.taken) ∧
      ∃ report report', ended.result = .ok report ∧ ended'.result = .ok report' ∧
        report.words = report'.words ∧ report.expanded = report'.expanded ∧
        report.dropped = report'.dropped ∧ report.unchanged = report'.unchanged := by
  intro ended outcome ended'
  have fresh := e.fresh_openTrail start journal heard
  rw [e.plan_overheard] at reachable
  have calm : p.Calm := reachable.calm assents fresh.calls
  have pool : Exhaustive e.scope start p.shared.trail :=
    reachable.exhaustive assents.stays fresh atomic finished calm
  obtain ⟨no_fault, loop'⟩ := Sequential.exhaustive_run assents' e'.scope start
    (e'.fresh_openTrail start journal' heard')
  have loop : Exhaustive e.scope start outcome.state.trail := by
    rw [← scope]
    exact loop'
  have hended' : ended' = e'.afterSequential start outcome :=
    e'.run_of_sequential start sequential _ _ _
  have result : ended.result = .ok (Report.ofTrail e.strategy start p.shared.trail 0) := by
    rw [e.result_afterPool, calm.failure]
    rfl
  have result' : ended'.result =
      .ok (Report.ofTrail e'.strategy start outcome.state.trail outcome.generations) := by
    rw [hended', e'.result_afterSequential, no_fault]
    rfl
  have taken := pool.taken_perm loop
  refine ⟨hended', ?_, pool.nodup, loop.nodup, fun t => taken.mem_iff, _, _, result, result',
    ?_, ?_, ?_, ?_⟩
  · rw [e.heard_afterPool, hended', e'.heard_afterSequential]
    exact pool.told_perm loop
  · exact congrArg Nat.cast (pool.ofVerdict_eq loop .word)
  · exact congrArg Nat.cast taken.length_eq
  · exact congrArg Nat.cast (pool.ofVerdict_eq loop .dropped)
  · exact congrArg Nat.cast (pool.ofVerdict_eq loop .unchanged)

/-- How a run of two workers goes on from `convergingMoves`: one is on `S` and the other on `T`, and they
take turns. -/
def convergingRest : List Move :=
  [.work 0, .work 0, .begin 0] ++ (List.replicate 16 [.work 1, .work 0]).flatten ++
    List.replicate 5 (.work 0) ++ [.caller, .caller]

theorem report_agrees_with_sequential_converging :
    let p := after (convergingPlan .taking) convergingTrail (convergingMoves ++ convergingRest)
    let ended := { converging with strategy := .sequential }.run Listener.taking.overheard ['S'] {}
      ([], ())
    p.caller = .finished ∧ p.shared.trail.taken = [['T'], ['S']] ∧
      ((converging.afterPool ['S'] p).heard.1.map Call.word).Perm (ended.heard.1.map Call.word) := by
  intro p ended
  have finished : p.caller = .finished := by decide
  have reachable : Reachable (convergingPlan .taking) convergingTrail p := reachable_after _ _ _
  have scope : { converging with strategy := .sequential }.scope = converging.scope := rfl
  have agrees := report_agrees_with_sequential scope rfl rfl Listener.assents_taking
    Listener.assents_taking ['S'] {} {} () () reachable finished
  exact ⟨finished, by decide, agrees.2.1⟩

end SemiThue.Exploration.Pool
