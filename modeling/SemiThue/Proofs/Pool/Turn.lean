/-
The moves of a pool, case by case.

`Pool.move?` computes what a move leads to. For a proof the other direction is wanted: given that a
move was possible, what was the case before it, and what is the case now? `Worker.Turn` answers that for
a worker that goes on, with one case for each way out of each point, and `Pool.Turn` for the pool as a
whole. Every invariant of the pool is proved by going through these cases, and no proof after this file
unfolds a move.

A schedule is a list of moves. Where it leads is a function of where it begins, so a run is given by its
schedule, and the reachable states are those to which some schedule leads.
-/
import SemiThue.Exploration.Pool.Basic

set_option autoImplicit false

namespace SemiThue.Exploration

variable {σ : Type}

/-! ## Workers -/

/-- **A worker goes on**: what is shared before, the worker, and the same afterwards. The only worker
that does not go on is one that leaves. -/
inductive Worker.Turn (plan : Plan σ) (s : Shared σ) : Worker → Shared σ → Worker → Prop where
  /-- A failure was noted before the worker came in. -/
  | turnAway {unit : Text} {todo : List Rule} (noted : s.failure.isSome = true) :
      Turn plan s ⟨unit, todo, .entering⟩ s ⟨unit, todo, .leaving⟩
  /-- No failure was noted, and the worker comes in. -/
  | comeIn {unit : Text} {todo : List Rule} (calm : s.failure = none) :
      Turn plan s ⟨unit, todo, .entering⟩ s ⟨unit, todo, .opening⟩
  /-- The unit is taken up. -/
  | takeUp {unit : Text} {todo : List Rule} :
      Turn plan s ⟨unit, todo, .opening⟩ { s with trail := s.trail.opened unit }
        ⟨unit, todo, .applying⟩
  /-- No rule is left. -/
  | runOut {unit : Text} : Turn plan s ⟨unit, [], .applying⟩ s ⟨unit, [], .leaving⟩
  /-- A rule is applied. -/
  | apply {unit : Text} {rule : Rule} {todo : List Rule} :
      Turn plan s ⟨unit, rule :: todo, .applying⟩
        { s with trail := s.trail.counted (plan.scope.apply unit rule) }
        ⟨unit, todo, .recording (plan.scope.apply unit rule)⟩
  /-- The result of an application is entered into the graph. -/
  | enter {unit : Text} {todo : List Rule} {a : Application} :
      Turn plan s ⟨unit, todo, .recording a⟩ { s with trail := s.trail.entered a }
        ⟨unit, todo, .linking a⟩
  /-- What was entered is linked. -/
  | link {unit : Text} {todo : List Rule} {a : Application} :
      Turn plan s ⟨unit, todo, .linking a⟩ { s with trail := s.trail.linked a }
        ⟨unit, todo, .announcing a⟩
  /-- A word is announced. -/
  | announceWord {unit : Text} {todo : List Rule} {a : Application} (word : a.verdict = .word) :
      Turn plan s ⟨unit, todo, .announcing a⟩ { s with trail := s.trail.announced a }
        ⟨unit, todo, .telling a.step.output⟩
  /-- A live text is announced. -/
  | announceLive {unit : Text} {todo : List Rule} {a : Application} (live : a.verdict = .live) :
      Turn plan s ⟨unit, todo, .announcing a⟩ { s with trail := s.trail.announced a }
        ⟨unit, todo, .claiming a.step.output⟩
  /-- There is nothing to announce. -/
  | announceNothing {unit : Text} {todo : List Rule} {a : Application} (word : a.verdict ≠ .word)
      (live : a.verdict ≠ .live) :
      Turn plan s ⟨unit, todo, .announcing a⟩ { s with trail := s.trail.announced a }
        ⟨unit, todo, .applying⟩
  /-- The listener takes a word. -/
  | tell {unit : Text} {todo : List Rule} {word : Text} {heard : σ}
      (answer : plan.listener s.outstanding word s.trail.heard = (heard, none)) :
      Turn plan s ⟨unit, todo, .telling word⟩ { s with trail := { s.trail with heard } }
        ⟨unit, todo, .applying⟩
  /-- The listener refuses a word. -/
  | refused {unit : Text} {todo : List Rule} {word : Text} {heard : σ} {fault : Fault}
      (answer : plan.listener s.outstanding word s.trail.heard = (heard, some fault))
      (failure : fault.isFailure = true) :
      Turn plan s ⟨unit, todo, .telling word⟩ { s with trail := { s.trail with heard } }
        ⟨unit, todo, .failing fault⟩
  /-- The listener asks to leave. -/
  | desert {unit : Text} {todo : List Rule} {word : Text} {heard : σ} {fault : Fault}
      (answer : plan.listener s.outstanding word s.trail.heard = (heard, some fault))
      (exit : fault.isFailure = false) :
      Turn plan s ⟨unit, todo, .telling word⟩ { s with trail := { s.trail with heard } }
        ⟨unit, todo, .leaving⟩
  /-- A live text was come upon before. -/
  | known {unit : Text} {todo : List Rule} {t : Text} (old : t ∈ s.visited) :
      Turn plan s ⟨unit, todo, .claiming t⟩ s ⟨unit, todo, .applying⟩
  /-- A live text is new, and it is marked in the same move. -/
  | claim {unit : Text} {todo : List Rule} {t : Text} (atomic : plan.atomic = true)
      (new : t ∉ s.visited) :
      Turn plan s ⟨unit, todo, .claiming t⟩ { s with visited := s.visited.insert t }
        ⟨unit, todo, .checking t⟩
  /-- A live text is new, and it is to be marked in a move of its own. -/
  | find {unit : Text} {todo : List Rule} {t : Text} (relaxed : plan.atomic = false)
      (new : t ∉ s.visited) :
      Turn plan s ⟨unit, todo, .claiming t⟩ s ⟨unit, todo, .marking t⟩
  /-- A live text is marked. -/
  | mark {unit : Text} {todo : List Rule} {t : Text} :
      Turn plan s ⟨unit, todo, .marking t⟩ { s with visited := s.visited.insert t }
        ⟨unit, todo, .checking t⟩
  /-- A failure was noted meanwhile, and the text is given up. -/
  | giveUp {unit : Text} {todo : List Rule} {t : Text} (noted : s.failure.isSome = true) :
      Turn plan s ⟨unit, todo, .checking t⟩ s ⟨unit, todo, .applying⟩
  /-- No failure was noted, and the text is to be scheduled. -/
  | keep {unit : Text} {todo : List Rule} {t : Text} (calm : s.failure = none) :
      Turn plan s ⟨unit, todo, .checking t⟩ s ⟨unit, todo, .counting t⟩
  /-- The text is counted. -/
  | count {unit : Text} {todo : List Rule} {t : Text} :
      Turn plan s ⟨unit, todo, .counting t⟩ s.countUp ⟨unit, todo, .submitting t⟩
  /-- The text is handed to the pool. -/
  | submit {unit : Text} {todo : List Rule} {t : Text} (accepting : s.accepting = true) :
      Turn plan s ⟨unit, todo, .submitting t⟩ { s with queue := s.queue.push t }
        ⟨unit, todo, .applying⟩
  /-- The pool takes no more units. -/
  | shutOut {unit : Text} {todo : List Rule} {t : Text} (closed : s.accepting = false) :
      Turn plan s ⟨unit, todo, .submitting t⟩ s.countDown ⟨unit, todo, .failing .poolClosed⟩
  /-- A failure is noted. -/
  | note {unit : Text} {todo : List Rule} {fault : Fault} :
      Turn plan s ⟨unit, todo, .failing fault⟩ (s.fail unit fault) ⟨unit, todo, .leaving⟩

/-- A worker that moves either goes on, in one of these ways, or leaves. -/
theorem Worker.turn_of_move {plan : Plan σ} {w : Worker} {s s' : Shared σ} {w' : Option Worker}
    (h : w.move plan s = (s', w')) :
    (∃ x, w' = some x ∧ Turn plan s w s' x) ∨
      (w' = none ∧ w.point = .leaving ∧ s' = s.countDown) := by
  obtain ⟨unit, todo, point⟩ := w
  -- a point has as many ways out as its move has branches
  cases point with
  | entering =>
    cases hf : s.failure with
    | none =>
      simp only [move, hf, Option.isSome_none, Bool.false_eq_true, if_false] at h
      cases h
      exact .inl ⟨_, rfl, .comeIn hf⟩
    | some first =>
      simp only [move, hf, Option.isSome_some, if_true] at h
      cases h
      exact .inl ⟨_, rfl, .turnAway (by rw [hf]; rfl)⟩
  | opening => cases h; exact .inl ⟨_, rfl, .takeUp⟩
  | applying =>
    cases todo with
    | nil => cases h; exact .inl ⟨_, rfl, .runOut⟩
    | cons rule todo => cases h; exact .inl ⟨_, rfl, .apply⟩
  | recording a => cases h; exact .inl ⟨_, rfl, .enter⟩
  | linking a => cases h; exact .inl ⟨_, rfl, .link⟩
  | announcing a =>
    cases hv : a.verdict with
    | word =>
      simp only [move, hv] at h
      cases h
      exact .inl ⟨_, rfl, .announceWord hv⟩
    | live =>
      simp only [move, hv] at h
      cases h
      exact .inl ⟨_, rfl, .announceLive hv⟩
    | dropped =>
      simp only [move, hv] at h
      cases h
      exact .inl ⟨_, rfl, .announceNothing (by simp [hv]) (by simp [hv])⟩
    | unchanged =>
      simp only [move, hv] at h
      cases h
      exact .inl ⟨_, rfl, .announceNothing (by simp [hv]) (by simp [hv])⟩
  | telling word =>
    cases ha : plan.listener s.outstanding word s.trail.heard with
    | mk heard answer =>
      cases answer with
      | none =>
        simp only [move, Trail.tell, ha] at h
        cases h
        exact .inl ⟨_, rfl, .tell ha⟩
      | some fault =>
        -- what the worker does next depends on whether the fault is a failure
        cases hf : fault.isFailure with
        | true =>
          simp only [move, Trail.tell, ha, Point.afterFault_of_failure hf] at h
          cases h
          exact .inl ⟨_, rfl, .refused ha hf⟩
        | false =>
          simp only [move, Trail.tell, ha, Point.afterFault_of_exit hf] at h
          cases h
          exact .inl ⟨_, rfl, .desert ha hf⟩
  | claiming t =>
    -- what is claimed depends on what was come upon, and how on the mode
    cases hc : s.visited.claim? t with
    | none =>
      simp only [move, hc] at h
      cases h
      exact .inl ⟨_, rfl, .known (Visited.claim?_eq_none_iff.1 hc)⟩
    | some visited =>
      obtain ⟨new, rfl⟩ := Visited.claim?_eq_some_iff.1 hc
      cases hm : plan.atomic with
      | true =>
        simp only [move, hc, hm, if_true] at h
        cases h
        exact .inl ⟨_, rfl, .claim hm new⟩
      | false =>
        simp only [move, hc, hm, Bool.false_eq_true, if_false] at h
        cases h
        exact .inl ⟨_, rfl, .find hm new⟩
  | marking t => cases h; exact .inl ⟨_, rfl, .mark⟩
  | checking t =>
    cases hf : s.failure with
    | none =>
      simp only [move, hf, Option.isSome_none, Bool.false_eq_true, if_false] at h
      cases h
      exact .inl ⟨_, rfl, .keep hf⟩
    | some first =>
      simp only [move, hf, Option.isSome_some, if_true] at h
      cases h
      exact .inl ⟨_, rfl, .giveUp (by rw [hf]; rfl)⟩
  | counting t => cases h; exact .inl ⟨_, rfl, .count⟩
  | submitting t =>
    cases hs : s.accepting with
    | true =>
      have taken : s.submit? t = some { s with queue := s.queue.push t } := if_pos hs
      simp only [move, taken] at h
      cases h
      exact .inl ⟨_, rfl, .submit hs⟩
    | false =>
      have refused : s.submit? t = none := if_neg (by simp [hs])
      simp only [move, refused] at h
      cases h
      exact .inl ⟨_, rfl, .shutOut hs⟩
  | failing fault => cases h; exact .inl ⟨_, rfl, .note⟩
  | leaving => cases h; exact .inr ⟨rfl, rfl, rfl⟩

/-! ## The pool -/

namespace Pool

/-- **A move of the pool**: the state before, the move, and the state after it. -/
inductive Turn (plan : Plan σ) (p : Pool σ) : Move → Pool σ → Prop where
  /-- The caller counts the start. -/
  | count (caller : p.caller = .counting) :
      Turn plan p .caller { p with shared := p.shared.countUp, caller := .submitting }
  /-- The caller hands the start to the pool. -/
  | submit (caller : p.caller = .submitting) :
      Turn plan p .caller { p with
        shared := { p.shared with queue := p.shared.queue.push plan.start }, caller := .waiting }
  /-- The caller has waited until nothing was outstanding, and closes the pool. -/
  | close (caller : p.caller = .waiting) (settled : p.shared.outstanding ≤ 0) :
      Turn plan p .caller { p with
        shared := { p.shared with accepting := false }, caller := .closing }
  /-- The caller has waited until the pool was empty, and has its answer. -/
  | finish (caller : p.caller = .closing) (crew : p.crew = [])
      (queue : p.shared.queue.toList = []) :
      Turn plan p .caller { p with caller := .finished }
  /-- A worker begins with a unit of the queue. -/
  | begin {i : Nat} {unit : Text} {queue : Queue Text}
      (taken : p.shared.queue.take? i = some (unit, queue)) (free : p.crew.length < plan.workers) :
      Turn plan p (.begin i) { p with
        shared := { p.shared with queue }
        crew := p.crew ++ [⟨unit, plan.scope.grammar.rules, .entering⟩] }
  /-- A worker goes on. -/
  | work {i : Nat} {w w' : Worker} {shared : Shared σ} (at_i : p.crew[i]? = some w)
      (turn : Worker.Turn plan p.shared w shared w') (free : w.wantsLock = true → p.isLocked = false) :
      Turn plan p (.work i) { p with shared, crew := p.crew.set i w' }
  /-- A worker leaves. -/
  | leave {i : Nat} {w : Worker} (at_i : p.crew[i]? = some w) (point : w.point = .leaving) :
      Turn plan p (.work i) { p with shared := p.shared.countDown, crew := p.crew.eraseIdx i }

variable {plan : Plan σ} {trail : Trail σ} {p q : Pool σ}

/-- **Every move is one of these.** -/
theorem turn_of_move? {m : Move} (h : p.move? plan m = some q) : Turn plan p m q := by
  cases m with
  | caller =>
    cases hc : p.caller with
    | counting =>
      simp only [move?, hc, Option.some.injEq] at h
      exact h ▸ .count hc
    | submitting =>
      simp only [move?, hc, Option.some.injEq] at h
      exact h ▸ .submit hc
    | waiting =>
      simp only [move?, hc] at h
      split at h
      · rename_i settled
        cases h
        exact .close hc ((Outstanding.isSettled_iff _).1 settled)
      · cases h
    | closing =>
      simp only [move?, hc] at h
      split at h
      · rename_i empty
        rw [Bool.and_eq_true, List.isEmpty_iff, Queue.isEmpty_iff] at empty
        cases h
        exact .finish hc empty.1 empty.2
      · cases h
    | finished => simp [move?, hc] at h
  | begin i =>
    simp only [move?] at h
    split at h
    · rename_i unit queue taken
      split at h
      · rename_i free
        cases h
        exact .begin taken free
      · cases h
    · cases h
  | work i =>
    simp only [move?] at h
    split at h
    · rename_i w at_i
      split at h
      · cases h
      rename_i unlocked
      have free : w.wantsLock = true → p.isLocked = false := by
        intro wants
        simpa [wants] using unlocked
      -- the worker stays in its place or leaves it, as its move says
      cases hm : w.move plan p.shared with
      | mk shared w' =>
        rw [hm] at h
        rcases Worker.turn_of_move hm with ⟨x, rfl, turn⟩ | ⟨rfl, point, rfl⟩
        · cases h
          exact .work at_i turn free
        · cases h
          exact .leave at_i point
    · cases h

/-- **What holds in the beginning and is kept by every move** holds in every reachable state. -/
theorem Reachable.keeps {P : Pool σ → Prop} (h : Reachable plan trail p)
    (initial : P (Pool.initial plan.start trail))
    (turn : ∀ {p q : Pool σ} {m : Move}, Reachable plan trail p → P p → Turn plan p m q → P q) :
    P p := by
  induction h with
  | initial => exact initial
  | step hp hs ih =>
    obtain ⟨m, hm⟩ := hs
    exact turn hp ih (turn_of_move? hm)

theorem Turn.length_crew_le {m : Move} (turn : Turn plan p m q)
    (few : p.crew.length ≤ plan.workers) : q.crew.length ≤ plan.workers := by
  cases turn with
  | begin taken free =>
    rw [List.length_append, List.length_singleton]
    omega
  | work => rw [List.length_set]; exact few
  | leave => exact Nat.le_trans (List.length_eraseIdx_le _ _) few
  | _ => exact few

/-- There are never more workers than there may be. -/
theorem Reachable.length_crew_le (h : Reachable plan trail p) : p.crew.length ≤ plan.workers :=
  h.keeps (P := fun p => p.crew.length ≤ plan.workers) (Nat.zero_le _)
    fun _ few turn => turn.length_crew_le few

/-! ## Schedules -/

/-- Where a schedule leads, if all its moves are possible. -/
def follow? (plan : Plan σ) (p : Pool σ) : List Move → Option (Pool σ)
  | [] => some p
  | m :: ms => (p.move? plan m).bind fun q => q.follow? plan ms

@[simp] theorem follow?_nil : p.follow? plan [] = some p := rfl

theorem follow?_cons_of_move? {m : Move} (h : p.move? plan m = some q) (ms : List Move) :
    p.follow? plan (m :: ms) = q.follow? plan ms := by
  rw [follow?, h, Option.bind_some]

theorem follow?_append {r : Pool σ} {ms ms' : List Move} (h : p.follow? plan ms = some q)
    (h' : q.follow? plan ms' = some r) : p.follow? plan (ms ++ ms') = some r := by
  induction ms generalizing p with
  | nil =>
    rw [follow?_nil, Option.some.injEq] at h
    rw [List.nil_append, h]
    exact h'
  | cons m ms ih =>
    obtain ⟨x, hx, h⟩ := Option.bind_eq_some_iff.1 h
    rw [List.cons_append, follow?_cons_of_move? hx]
    exact ih h

/-- **What every move keeps, a schedule keeps.** -/
theorem keeps_of_follow? {P : Pool σ → Prop} {ms : List Move}
    (turn : ∀ {p q : Pool σ} {m : Move}, P p → Turn plan p m q → P q) (hp : P p)
    (h : p.follow? plan ms = some q) : P q := by
  induction ms generalizing p with
  | nil =>
    rw [follow?_nil, Option.some.injEq] at h
    exact h ▸ hp
  | cons m ms ih =>
    obtain ⟨x, hx, h⟩ := Option.bind_eq_some_iff.1 h
    exact ih (turn hp (turn_of_move? hx)) h

theorem Reachable.follow {ms : List Move} (h : Reachable plan trail p)
    (hf : p.follow? plan ms = some q) : Reachable plan trail q := by
  induction ms generalizing p with
  | nil =>
    rw [follow?_nil, Option.some.injEq] at hf
    exact hf ▸ h
  | cons m ms ih =>
    obtain ⟨x, hx, hf⟩ := Option.bind_eq_some_iff.1 hf
    exact ih (h.step ⟨m, hx⟩) hf

/-- The state of a run after a schedule; the beginning, if the schedule is not possible. -/
def after (plan : Plan σ) (trail : Trail σ) (ms : List Move) : Pool σ :=
  ((initial plan.start trail).follow? plan ms).getD (initial plan.start trail)

theorem reachable_after (plan : Plan σ) (trail : Trail σ) (ms : List Move) :
    Reachable plan trail (after plan trail ms) := by
  unfold after
  cases h : (initial plan.start trail).follow? plan ms with
  | none => exact .initial
  | some p => exact Reachable.initial.follow h

/-- The reachable states are those to which a schedule leads. -/
theorem reachable_iff_exists_schedule :
    Reachable plan trail p ↔ ∃ ms, (Pool.initial plan.start trail).follow? plan ms = some p := by
  constructor
  · intro h
    induction h with
    | initial => exact ⟨[], rfl⟩
    | step _ hs ih =>
      obtain ⟨m, hm⟩ := hs
      obtain ⟨ms, hms⟩ := ih
      exact ⟨ms ++ [m], follow?_append hms (by rw [follow?_cons_of_move? hm, follow?_nil])⟩
  · rintro ⟨ms, h⟩
    exact Reachable.initial.follow h

end Pool

end SemiThue.Exploration
