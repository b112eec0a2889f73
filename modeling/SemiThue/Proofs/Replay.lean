/-
The log of a run explains its listener.

The state of a listener is the outcome of its calls and of nothing else: it begins in some state, and each
call finds it as the calls before have left it. `Listener.Log` says this of a log and a state, and
`Ends.log` that it holds at the end of every run. So whatever is to be known about a listener after a run can
be proved by going through a log, and the run, with its schedule and its workers, need not be mentioned.

A log also explains how a run failed. A sequential run ends in the fault of one of its calls, as it is; the
pool wraps it.
-/
import SemiThue.Proofs.Moments
import SemiThue.Proofs.Pool.Failure

set_option autoImplicit false

namespace SemiThue.Exploration

variable {σ : Type}

/-- **A log and the state that it explains**, for a listener that began in a given state. -/
inductive Listener.Log (listener : Listener σ) (first : σ) : List Call → σ → Prop where
  /-- No call was made yet. -/
  | start : Log listener first [] first
  /-- The listener is told a word under some count, and answers. -/
  | call {calls : List Call} {heard : σ} (log : Log listener first calls heard) (n : Outstanding)
      (word : Text) :
      Log listener first (⟨word, n, (listener n word heard).2⟩ :: calls) (listener n word heard).1

/-! ## The pool -/

section Turn

variable {plan : Plan σ} {s s' : Shared (Heard σ)} {w w' : Worker} {first : σ}

/-- **A worker that goes on** makes one call, or leaves the listener alone. -/
theorem Worker.Turn.log (h : Worker.Turn plan.overheard s w s' w')
    (log : plan.listener.Log first s.trail.heard.1 s.trail.heard.2) :
    plan.listener.Log first s'.trail.heard.1 s'.trail.heard.2 := by
  cases h with
  | tell answer | refused answer | desert answer =>
    obtain ⟨rfl, -⟩ := Prod.mk.inj answer
    exact log.call _ _
  | announceWord | announceLive | announceNothing =>
    rw [Trail.heard_announced]
    exact log
  | note =>
    unfold Shared.fail noteFailure
    split
    exact log
  | _ => exact log

/-- **Every reachable state has its listener explained** by the log. -/
theorem Pool.Reachable.log {trail : Trail (Heard σ)} {p : Pool (Heard σ)}
    (h : Reachable plan.overheard trail p) (blank : trail.heard.1 = []) :
    plan.listener.Log trail.heard.2 p.shared.trail.heard.1 p.shared.trail.heard.2 := by
  refine h.keeps (P := fun p =>
    plan.listener.Log trail.heard.2 p.shared.trail.heard.1 p.shared.trail.heard.2) ?_ ?_
  · change plan.listener.Log trail.heard.2 trail.heard.1 trail.heard.2
    rw [blank]
    exact .start
  · intro p q m _ ih turn
    cases turn with
    | work at_i turn => exact turn.log ih
    | _ => exact ih

end Turn

/-! ## Ends of runs -/

namespace Explorer

variable {e : Explorer} {listener : Listener σ} {start : Text} {journal : Journal} {heard : σ}
  {ended : Ended (Heard σ)}

/-- **At the end of every run the listener is explained by the log.** -/
theorem Ends.log (run : e.Ends listener.overheard start journal ([], heard) ended) :
    listener.Log heard ended.heard.1 ended.heard.2 := by
  obtain ⟨trail, leaves⟩ := run.exists_leaves
  obtain ⟨crew, p, reachable, silent⟩ := leaves.passes.exists_pool
  obtain ⟨-, -, -, same⟩ := Trail.silent_eq_iff.1 silent
  rw [e.plan_overheard] at reachable
  rw [leaves.heard_eq, ← same]
  exact reachable.log rfl

/-- **A run that fails** does so with the fault of one of its calls, which a pool wraps. -/
theorem Ends.exists_call (run : e.Ends listener.overheard start journal ([], heard) ended)
    {fault : Fault} (failed : ended.result = .error fault) :
    ∃ call ∈ ended.heard.1, ∃ cause, call.fault = some cause ∧
      (fault = cause ∨ ∃ unit, fault = cause.atUnit unit) := by
  cases run with
  | sequential strategy =>
    rw [e.result_afterSequential] at failed
    rw [e.heard_afterSequential]
    cases refused : (Sequential.run e.scope listener.overheard start
        (e.openTrail start journal ([], heard))).fault with
    | none =>
      rw [refused] at failed
      cases failed
    | some cause =>
      rw [refused] at failed
      obtain ⟨call, made, answer, -⟩ :=
        Sequential.refused_of_run (e.fresh_openTrail start journal heard) refused
      exact ⟨call, made, cause, answer, .inl (Except.error.inj failed).symm⟩
  | @concurrent crew strategy p reachable finished =>
    rw [e.result_afterPool] at failed
    rw [e.heard_afterPool]
    have overheard : Pool.Reachable (e.plan crew listener start).overheard
        (e.openTrail start journal ([], heard)) p := reachable
    rcases overheard.notedFirst with ⟨calm, -⟩ | ⟨unit, cause, story, noted, -⟩
    · rw [calm] at failed
      cases failed
    · rw [noted] at failed
      obtain ⟨call, made, answer, -⟩ := story.exists_call rfl
      exact ⟨call, made, cause, answer, .inr ⟨unit, (Except.error.inj failed).symm⟩⟩

/-- The words told in a run are made of terminals. -/
theorem Ends.terminal (run : e.Ends listener.overheard start journal ([], heard) ended) {word : Text}
    (told : word ∈ ended.heard.1.map Call.word) {c : Char} (letter : c ∈ word) :
    [c] ∈ e.scope.grammar.terminals := by
  obtain ⟨trail, leaves⟩ := run.exists_leaves
  rw [leaves.heard_eq] at told
  obtain ⟨t, -, given⟩ := leaves.passes.exists_taken_of_mem_told told
  obtain ⟨rule, -, givesWord, rfl⟩ := Scope.mem_word_iff.1 given
  exact givesWord.2.2.2 c letter

end Explorer

end SemiThue.Exploration
