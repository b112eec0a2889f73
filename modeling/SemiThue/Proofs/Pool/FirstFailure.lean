/-
The failure that a run reports.

A worker whose word was refused notes the failure, and so may others after it. Only the first to do so
decides what the run reports, and only it leaves an error in the journal. `NotedFirst` tells the story of
a state in which a failure was noted: there was a last state without one, in it a worker stood before
noting a fault at its unit, that worker moved, and some schedule led on from there. The fault came from a
call with a word of that very unit, and neither the failure nor the errors in the journal have changed
since.
-/
import SemiThue.Proofs.Pool.Sound

set_option autoImplicit false

namespace SemiThue

/-! ## Errors in the journal -/

namespace Journal

/-- The entries that are errors, the oldest first. -/
def errors (j : Journal) : List Entry := j.toList.filter fun e => e.level = .error

variable (j : Journal) (channel : Channel) (message : String)

theorem errors_write_error :
    (j.write .error channel message).errors = j.errors ++ [⟨.error, channel, message⟩] := by
  rw [errors, toList_write, List.filter_append]
  rfl

theorem errors_write {level : Level} (h : level ≠ .error) :
    (j.write level channel message).errors = j.errors := by
  rw [errors, toList_write, List.filter_append, List.filter_singleton]
  simp [h, errors]

end Journal

namespace Exploration

variable {σ : Type}

/-- The entry of the journal about the failure that is kept. -/
def failureEntry (unit : Text) (fault : Fault) : Entry :=
  ⟨.error, .explorer, s!"Unit failed on {unit.quoted}: {fault.message}"⟩

theorem Trail.errors_announced (t : Trail σ) (a : Application) :
    (t.announced a).journal.errors = t.journal.errors := by
  unfold announced
  cases a.verdict with
  | word => exact Journal.errors_write _ _ _ (by simp)
  | live => exact Journal.errors_write _ _ _ (by simp)
  | dropped => rfl
  | unchanged => rfl

/-- The first failure is kept as it is to be reported, and leaves an error in the journal. -/
theorem Shared.fail_of_calm {s : Shared σ} (calm : s.failure = none) (unit : Text) (fault : Fault) :
    (s.fail unit fault).failure = some (fault.atUnit unit) ∧
      (s.fail unit fault).trail.journal.errors =
        s.trail.journal.errors ++ [failureEntry unit fault] := by
  simp only [fail, noteFailure, calm]
  exact ⟨trivial, Journal.errors_write_error _ _ _⟩

/-- Any later failure leaves no error in the journal. -/
theorem Shared.errors_fail {s : Shared σ} {first : Fault} (noted : s.failure = some first)
    (unit : Text) (fault : Fault) :
    (s.fail unit fault).trail.journal.errors = s.trail.journal.errors := by
  simp only [fail, noteFailure, noted]
  exact Journal.errors_write _ _ _ (by simp)

/-- **A turn notes the first failure, or leaves the failure and the errors alone.** -/
theorem Worker.Turn.note_or_same {plan : Plan σ} {s s' : Shared σ} {w w' : Worker}
    (h : Worker.Turn plan s w s' w') :
    (s'.failure = s.failure ∧ s'.trail.journal.errors = s.trail.journal.errors) ∨
      (s.failure = none ∧ ∃ fault, w.point = .failing fault ∧ s' = s.fail w.unit fault ∧
        w' = ⟨w.unit, w.todo, .leaving⟩) := by
  cases h with
  | @note unit todo fault =>
    cases hf : s.failure with
    | none => exact .inr ⟨rfl, fault, rfl, rfl, rfl⟩
    | some first =>
      refine .inl ⟨?_, Shared.errors_fail hf unit fault⟩
      simp [Shared.fail, noteFailure, hf]
  | announceWord => exact .inl ⟨rfl, Trail.errors_announced _ _⟩
  | announceLive => exact .inl ⟨rfl, Trail.errors_announced _ _⟩
  | announceNothing => exact .inl ⟨rfl, Trail.errors_announced _ _⟩
  | _ => exact .inl ⟨rfl, rfl⟩

theorem Worker.Turn.unit_eq {plan : Plan σ} {s s' : Shared σ} {w w' : Worker}
    (h : Worker.Turn plan s w s' w') : w'.unit = w.unit := by
  cases h <;> rfl

namespace Pool

/-! ## Where faults come from -/

section Blame

variable {plan : Plan σ} {trail : Trail (Heard σ)} {p : Pool (Heard σ)}

/-- **Whoever is about to note a failure was refused a word of its unit.** -/
theorem Reachable.exists_call_of_failing (fresh : trail.taken = [])
    (h : Reachable plan.overheard trail p) :
    ∀ w ∈ p.crew, ∀ fault, w.point = .failing fault →
      ∃ call ∈ p.shared.trail.calls, call.fault = some fault ∧
        call.word ∈ outputs .word (plan.scope.applications w.unit) := by
  refine h.keeps (P := fun p => ∀ w ∈ p.crew, ∀ fault, w.point = .failing fault →
    ∃ call ∈ p.shared.trail.calls, call.fault = some fault ∧
      call.word ∈ outputs .word (plan.scope.applications w.unit)) ?_ ?_
  · intro w hw
    simp [Pool.initial] at hw
  · intro p q m hp ih ht
    cases ht with
    | begin =>
      intro w hw fault hf
      rcases List.mem_append.1 hw with hw | hw
      · exact ih w hw fault hf
      · rw [List.mem_singleton.1 hw] at hf
        cases hf
    | @work i w w' shared at_i turn =>
      have mem := List.mem_of_getElem? at_i
      have accepting : p.shared.accepting = true :=
        hp.joined.accepting_of_units (units_pos_of_mem mem)
      have sound := (hp.sound fresh).crew w mem
      intro x hx fault hf
      rcases turn.call_or_quiet with ⟨calls, quiet⟩ | ⟨call, calls, -, -, -, telling, answer⟩
      · rw [calls]
        rcases (mem_set_crew_iff at_i w').1 hx with rfl | hx
        · -- the pool takes units, so without a call nobody turns to failing
          cases turn with
          | refused => exact absurd rfl (quiet _)
          | shutOut closed => rw [accepting] at closed; cases closed
          | _ => cases hf
        · exact ih x ((mem_crew_iff at_i).2 (.inr hx)) fault hf
      · rw [calls]
        rcases (mem_set_crew_iff at_i w').1 hx with rfl | hx
        · have refused : call.fault = some fault := by
            cases hc : call.fault with
            | none => rw [answer, hc] at hf; cases hf
            | some other =>
              rw [answer, hc, Option.elim_some, Point.afterFault_eq_failing_iff] at hf
              rw [hf.1]
          -- the word told was made of the unit
          have made := sound.point
          rw [telling] at made
          rw [turn.unit_eq]
          exact ⟨call, List.mem_cons_self, refused, made⟩
        · obtain ⟨c, hc, rest⟩ := ih x ((mem_crew_iff at_i).2 (.inr hx)) fault hf
          exact ⟨c, List.mem_cons_of_mem _ hc, rest⟩
    | leave => exact fun w hw fault hf => ih w (List.mem_of_mem_eraseIdx hw) fault hf
    | _ => exact ih

end Blame

/-! ## The first failure -/

section First

variable {plan : Plan σ} {trail : Trail σ} {p q : Pool σ}

/-- **Who noted the first failure**: in a state without one a worker on this unit stood before noting
this fault, it moved, and from there a schedule led to the state at hand. -/
def NotedFirst (plan : Plan σ) (trail : Trail σ) (unit : Text) (fault : Fault) (p : Pool σ) : Prop :=
  ∃ (before after : Pool σ) (i : Nat) (todo : List Rule) (ms : List Move),
    Reachable plan trail before ∧ before.shared.failure = none ∧
      before.crew[i]? = some ⟨unit, todo, .failing fault⟩ ∧
        before.move? plan (.work i) = some after ∧
          after.shared.failure = some (fault.atUnit unit) ∧ after.follow? plan ms = some p

/-- A move notes the first failure, or leaves the failure and the errors alone. -/
theorem Turn.note_or_same {m : Move} (h : Turn plan p m q) :
    (q.shared.failure = p.shared.failure ∧
        q.shared.trail.journal.errors = p.shared.trail.journal.errors) ∨
      (p.shared.failure = none ∧ ∃ (i : Nat) (unit : Text) (todo : List Rule) (fault : Fault),
        m = .work i ∧ p.crew[i]? = some ⟨unit, todo, .failing fault⟩ ∧
          q.shared = p.shared.fail unit fault ∧ q.crew = p.crew.set i ⟨unit, todo, .leaving⟩) := by
  cases h with
  | @work i w w' shared at_i turn =>
    rcases turn.note_or_same with same | ⟨calm, fault, point, rfl, rfl⟩
    · exact .inl same
    · obtain ⟨unit, todo, point'⟩ := w
      cases point
      exact .inr ⟨calm, i, unit, todo, fault, rfl, at_i, rfl, rfl⟩
  | _ => exact .inl ⟨rfl, rfl⟩

/-- **A failure that was noted stays, and so do the errors in the journal.** -/
theorem failure_of_follow? {first : Fault} {errors : List Entry} {ms : List Move}
    (noted : p.shared.failure = some first) (logged : p.shared.trail.journal.errors = errors)
    (h : p.follow? plan ms = some q) :
    q.shared.failure = some first ∧ q.shared.trail.journal.errors = errors := by
  refine keeps_of_follow? (P := fun p => p.shared.failure = some first ∧
    p.shared.trail.journal.errors = errors) ?_ ⟨noted, logged⟩ h
  rintro p q m ⟨noted, logged⟩ ht
  rcases ht.note_or_same with ⟨failure, same⟩ | ⟨calm, -⟩
  · exact ⟨failure.trans noted, same.trans logged⟩
  · rw [noted] at calm
    cases calm

/-- **Every failure was noted first by somebody.** While there is none, the journal has no new errors;
once there is one, the journal has one new error. -/
theorem Reachable.notedFirst (h : Reachable plan trail p) :
    (p.shared.failure = none ∧ p.shared.trail.journal.errors = trail.journal.errors) ∨
      ∃ unit fault, NotedFirst plan trail unit fault p ∧
        p.shared.failure = some (fault.atUnit unit) ∧
          p.shared.trail.journal.errors = trail.journal.errors ++ [failureEntry unit fault] := by
  induction h with
  | initial => exact .inl ⟨rfl, rfl⟩
  | @step p q hp hs ih =>
    obtain ⟨m, hm⟩ := hs
    rcases ih with ⟨calm, logged⟩ | ⟨unit, fault, story, noted, logged⟩
    · rcases (turn_of_move? hm).note_or_same with ⟨failure, same⟩ |
        ⟨-, i, unit, todo, fault, rfl, at_i, shared, -⟩
      · exact .inl ⟨failure.trans calm, same.trans logged⟩
      · -- this is the move that notes the first failure
        obtain ⟨noted, entry⟩ := Shared.fail_of_calm calm unit fault
        rw [← shared] at noted entry
        rw [logged] at entry
        exact .inr ⟨unit, fault, ⟨p, q, i, todo, [], hp, calm, at_i, hm, noted, rfl⟩, noted, entry⟩
    · -- the failure was noted before, so the story goes on by one move
      have step : p.follow? plan [m] = some q := by rw [follow?_cons_of_move? hm, follow?_nil]
      obtain ⟨noted', logged'⟩ := failure_of_follow? noted logged step
      obtain ⟨before, after, i, todo, ms, rest⟩ := story
      obtain ⟨hb, hf, at_i, move, first, path⟩ := rest
      refine .inr ⟨unit, fault, ⟨before, after, i, todo, ms ++ [m], ?_⟩, noted', logged'⟩
      exact ⟨hb, hf, at_i, move, first, follow?_append path step⟩

end First

/-- A call that was made stays in the log. -/
theorem mem_calls_of_follow? {plan : Plan σ} {p q : Pool (Heard σ)} {ms : List Move} {call : Call}
    (made : call ∈ p.shared.trail.calls) (h : p.follow? plan.overheard ms = some q) :
    call ∈ q.shared.trail.calls :=
  keeps_of_follow? (P := fun p => call ∈ p.shared.trail.calls) (fun made turn => turn.mem_calls made) made h

/-- The fault that was noted first is that of a call with a word of its unit. -/
theorem NotedFirst.exists_call {plan : Plan σ} {trail : Trail (Heard σ)} {unit : Text} {fault : Fault}
    {p : Pool (Heard σ)} (fresh : trail.taken = [])
    (h : NotedFirst plan.overheard trail unit fault p) :
    ∃ call ∈ p.shared.trail.calls, call.fault = some fault ∧
      call.word ∈ outputs .word (plan.scope.applications unit) := by
  obtain ⟨before, after, i, todo, ms, reachable, -, at_i, move, -, path⟩ := h
  have mem := List.mem_of_getElem? at_i
  obtain ⟨call, made, rest⟩ := reachable.exists_call_of_failing fresh _ mem fault rfl
  have all : before.follow? plan.overheard (.work i :: ms) = some p := by
    rw [follow?_cons_of_move? move]
    exact path
  exact ⟨call, mem_calls_of_follow? made all, rest⟩

end Pool

end Exploration

end SemiThue
