/-
What a failure does to a run.

Once a failure was noted the run winds down. A worker that looks for failures only now leaves at once: of
all that it shares with the others it touches nothing but the count. A worker that had looked before goes
on, and may still hand one unit to the pool if it is past its last look. The worker that noted the failure
is none of these, so fewer units are submitted than there may be workers.

To say what one worker does along a schedule, it has to be found again after each move: workers have no
names, only places in the crew, and a worker moves up when one before it leaves. `Pool.place` keeps track
of that.
-/
import SemiThue.Proofs.Pool.Agreement
import SemiThue.Proofs.Pool.FirstFailure

set_option autoImplicit false

namespace SemiThue.Exploration

variable {σ : Type}

namespace Explorer

theorem errors_openTrail (e : Explorer) (start : Text) (journal : Journal) (heard : σ) :
    (e.openTrail start journal heard).journal.errors = journal.errors :=
  Journal.errors_write _ _ _ (by simp)

theorem errors_afterPool (e : Explorer) (start : Text) (p : Pool σ) :
    (e.afterPool start p).journal.errors = p.shared.trail.journal.errors := by
  unfold afterPool close
  cases p.shared.failure with
  | none => exact Journal.errors_write _ _ _ (by simp)
  | some fault => rfl

end Explorer

/-- The only turn of a worker that looks for failures too late is to be turned away. -/
theorem Worker.Turn.turned_away {plan : Plan σ} {s s' : Shared σ} {w w' : Worker}
    (h : Worker.Turn plan s w s' w') {first : Fault} (noted : s.failure = some first)
    (late : w.point = .entering ∨ w.point = .leaving) : s' = s ∧ w'.point = .leaving := by
  cases h with
  | turnAway => exact ⟨rfl, rfl⟩
  | comeIn calm =>
    rw [noted] at calm
    cases calm
  | _ => rcases late with late | late <;> cases late

namespace Pool

variable {plan : Plan σ} {trail : Trail σ} {p q : Pool σ}

/-! ## One worker along a schedule -/

/-- Where a worker stands in the crew after a move from one state to another; nowhere, once it is gone. -/
def place (p q : Pool σ) (i : Nat) : Move → Option Nat
  | .work j =>
    if q.crew.length = p.crew.length then some i
    else if i < j then some i
    else if i = j then none
    else some (i - 1)
  | _ => some i

/-- **What a worker does along a schedule**: what is shared before and after each of its moves. -/
def deeds (plan : Plan σ) (p : Pool σ) (worker : Option Nat) : List Move → List (Shared σ × Shared σ)
  | [] => []
  | m :: ms =>
    match worker, p.move? plan m with
    | some i, some q =>
      (if m = .work i then [(p.shared, q.shared)] else []) ++ deeds plan q (p.place q i m) ms
    | _, _ => []

/-- **A worker is found again**: after a move of anybody else it is where `place` says, and after a move
of its own it is in its place, unless it has left. -/
theorem Turn.place_spec {m : Move} (h : Turn plan p m q) {i : Nat} {w : Worker}
    (at_i : p.crew[i]? = some w) :
    (m ≠ .work i ∧ ∃ j, p.place q i m = some j ∧ q.crew[j]? = some w) ∨
      (m = .work i ∧ ∃ w', Worker.Turn plan p.shared w q.shared w' ∧ p.place q i m = some i ∧
        q.crew[i]? = some w') ∨
      (m = .work i ∧ q.shared = p.shared.countDown ∧ p.place q i m = none) := by
  have hi := (List.getElem?_eq_some_iff.1 at_i).1
  cases h with
  | count => exact .inl ⟨by simp, i, rfl, at_i⟩
  | submit => exact .inl ⟨by simp, i, rfl, at_i⟩
  | close => exact .inl ⟨by simp, i, rfl, at_i⟩
  | finish => exact .inl ⟨by simp, i, rfl, at_i⟩
  | begin =>
    refine .inl ⟨by simp, i, rfl, ?_⟩
    rw [List.getElem?_append_left hi]
    exact at_i
  | @work j x x' shared at_j turn =>
    have length : (p.crew.set j x').length = p.crew.length := List.length_set
    have stays : p.place { p with shared, crew := p.crew.set j x' } i (.work j) = some i := by
      rw [place, if_pos length]
    -- nobody leaves, so all places stay
    by_cases hj : i = j
    · subst hj
      rw [at_i] at at_j
      cases at_j
      refine .inr (.inl ⟨rfl, x', turn, stays, ?_⟩)
      rw [List.getElem?_set_self hi]
    · refine .inl ⟨?_, i, stays, ?_⟩
      · intro same
        exact hj (Move.work.inj same).symm
      · rw [List.getElem?_set_ne (Ne.symm hj)]
        exact at_i
  | @leave j x at_j point =>
    have hlt := (List.getElem?_eq_some_iff.1 at_j).1
    have length : (p.crew.eraseIdx j).length ≠ p.crew.length := by
      rw [List.length_eraseIdx_of_lt hlt]
      omega
    -- those behind the worker that leaves move up by one
    by_cases hj : i = j
    · subst hj
      refine .inr (.inr ⟨rfl, rfl, ?_⟩)
      rw [place, if_neg length, if_neg (Nat.lt_irrefl i), if_pos rfl]
    · have other : Move.work j ≠ .work i := fun same => hj (Move.work.inj same).symm
      by_cases before : i < j
      · refine .inl ⟨other, i, ?_, ?_⟩
        · rw [place, if_neg length, if_pos before]
        · rw [List.getElem?_eraseIdx, if_pos before]
          exact at_i
      · refine .inl ⟨other, i - 1, ?_, ?_⟩
        · rw [place, if_neg length, if_neg before, if_neg hj]
        · have behind : ¬i - 1 < j := by omega
          have back : i - 1 + 1 = i := by omega
          rw [List.getElem?_eraseIdx, if_neg behind, back]
          exact at_i

/-! ## Latecomers -/

/-- A move leaves a failure that was noted as it is. -/
theorem Turn.failure_eq_some {m : Move} (h : Turn plan p m q) {first : Fault}
    (noted : p.shared.failure = some first) : q.shared.failure = some first := by
  rcases h.note_or_same with ⟨same, -⟩ | ⟨calm, -⟩
  · exact same.trans noted
  · rw [noted] at calm
    cases calm

/-- **A worker that looks for failures too late does nothing.** Along any schedule it only lowers the
count, when it leaves. -/
theorem deeds_of_late {first : Fault} (noted : p.shared.failure = some first) {i : Nat} {w : Worker}
    (at_i : p.crew[i]? = some w) (late : w.point = .entering ∨ w.point = .leaving) (ms : List Move) :
    ∀ deed ∈ deeds plan p (some i) ms, deed.2 = deed.1 ∨ deed.2 = deed.1.countDown := by
  induction ms generalizing p i w with
  | nil => exact fun _ hd => absurd hd List.not_mem_nil
  | cons m ms ih =>
    intro deed hd
    unfold deeds at hd
    cases hm : p.move? plan m with
    | none => simp [hm] at hd
    | some q =>
      simp only [hm] at hd
      have turn := turn_of_move? hm
      have noted' := turn.failure_eq_some noted
      rcases turn.place_spec at_i with ⟨other, j, hj, at_j⟩ | ⟨own, w', step, hj, at_i'⟩ |
        ⟨own, left, hj⟩
      · rw [if_neg other, hj, List.nil_append] at hd
        exact ih noted' at_j late deed hd
      · rw [if_pos own, hj, List.mem_append, List.mem_singleton] at hd
        obtain ⟨same, leaving⟩ := step.turned_away noted late
        rcases hd with rfl | hd
        · exact .inl same
        · exact ih noted' at_i' (.inr leaving) deed hd
      · rw [if_pos own, hj, List.mem_append, List.mem_singleton] at hd
        rcases hd with rfl | hd
        · exact .inr left
        · cases ms <;> simp [deeds] at hd

/-! ## Submissions -/

/-- **How many units are submitted along a schedule.** -/
def submissions (plan : Plan σ) (p : Pool σ) : List Move → Nat
  | [] => 0
  | m :: ms =>
    match p.move? plan m with
    | none => 0
    | some q =>
      (if p.shared.queue.toList.length < q.shared.queue.toList.length then 1 else 0) +
        submissions plan q ms

end Pool

/-- One for a worker that has looked for failures and is to hand a unit to the pool, zero for any other. -/
def Worker.committed (w : Worker) : Nat :=
  match w.point with
  | .counting _ | .submitting _ => 1
  | _ => 0

theorem Worker.committed_le_one (w : Worker) : w.committed ≤ 1 := by
  unfold committed
  split <;> omega

/-- After a failure, whoever submits was committed, and nobody commits itself any more. -/
theorem Worker.Turn.submitted_add_committed {plan : Plan σ} {s s' : Shared σ} {w w' : Worker}
    (h : Worker.Turn plan s w s' w') {first : Fault} (noted : s.failure = some first) :
    (if s.queue.toList.length < s'.queue.toList.length then 1 else 0) + w'.committed ≤
      w.committed := by
  cases h with
  | keep calm =>
    rw [noted] at calm
    cases calm
  | submit => simp [Worker.committed]
  | count => simp [Worker.committed, Shared.countUp]
  | shutOut => simp [Worker.committed, Shared.countDown]
  | _ => simp [Worker.committed]

namespace Pool

variable {plan : Plan σ} {trail : Trail σ} {p q : Pool σ}

/-- How many workers are committed to hand a unit to the pool. -/
def committed (p : Pool σ) : Nat := Measure.total Worker.committed p.crew

/-- When a failure was noted, the caller has handed over the start. -/
theorem Reachable.caller_of_failure (h : Reachable plan trail p) {first : Fault}
    (noted : p.shared.failure = some first) : p.caller ≠ .counting ∧ p.caller ≠ .submitting := by
  refine h.keeps (P := fun p => ∀ first, p.shared.failure = some first →
    p.caller ≠ .counting ∧ p.caller ≠ .submitting) ?_ ?_ first noted
  · intro first noted
    cases noted
  · intro p q m hp ih ht first noted
    cases ht with
    | count caller => exact absurd caller (ih first noted).1
    | submit caller => exact absurd caller (ih first noted).2
    | close => exact ⟨by simp, by simp⟩
    | finish => exact ⟨by simp, by simp⟩
    | begin => exact ih first noted
    | work at_i turn =>
      have units := units_pos_of_mem (List.mem_of_getElem? at_i)
      rw [hp.joined.waiting units]
      exact ⟨by simp, by simp⟩
    | leave => exact ih first noted

/-- **A submission after a failure uses up a commitment.** -/
theorem Turn.submitted_add_committed {m : Move} (h : Turn plan p m q) (reachable : Reachable plan trail p)
    {first : Fault} (noted : p.shared.failure = some first) :
    (if p.shared.queue.toList.length < q.shared.queue.toList.length then 1 else 0) + q.committed ≤
      p.committed := by
  have handed := reachable.caller_of_failure noted
  unfold committed
  cases h with
  | count caller => exact absurd caller handed.1
  | submit caller => exact absurd caller handed.2
  | close => simp
  | finish => simp
  | @begin i unit queue taken free =>
    have shorter : queue.toList.length ≤ p.shared.queue.toList.length := by
      rw [(Queue.take?_eq_some taken).2]
      exact List.length_eraseIdx_le _ _
    rw [if_neg (Nat.not_lt.2 shorter), Measure.total_append]
    simp [Worker.committed]
  | @work i w w' shared at_i turn =>
    have own := turn.submitted_add_committed noted
    have crew := Measure.total_set Worker.committed w' at_i
    simp only
    omega
  | leave at_i =>
    have crew := Measure.total_eraseIdx Worker.committed at_i
    simp only [Shared.countDown, Nat.lt_irrefl, if_false]
    omega

theorem submissions_le_committed (reachable : Reachable plan trail p) {first : Fault}
    (noted : p.shared.failure = some first) (ms : List Move) :
    submissions plan p ms ≤ p.committed := by
  induction ms generalizing p with
  | nil => exact Nat.zero_le _
  | cons m ms ih =>
    unfold submissions
    cases hm : p.move? plan m with
    | none => exact Nat.zero_le _
    | some q =>
      have turn := turn_of_move? hm
      have step := turn.submitted_add_committed reachable noted
      have rest := ih (reachable.step ⟨m, hm⟩) (turn.failure_eq_some noted)
      simp only
      omega

/-- **Whoever noted the failure is committed to nothing**, so not the whole crew is. -/
theorem Reachable.committed_lt (h : Reachable plan trail p) {first : Fault}
    (noted : p.shared.failure = some first) : p.committed < plan.workers := by
  refine h.keeps (P := fun p => ∀ first, p.shared.failure = some first →
    p.committed < plan.workers) ?_ ?_ first noted
  · intro first noted
    cases noted
  · intro p q m hp ih ht first noted
    rcases ht.note_or_same with ⟨same, -⟩ | ⟨-, i, unit, todo, fault, rfl, at_i, -, crew⟩
    · -- the failure was there before, and commitments are only used up
      rw [same] at noted
      have before := ih first noted
      have step := ht.submitted_add_committed hp noted
      omega
    · -- the failure is noted now, by a worker that is committed to nothing
      have own : Worker.committed ⟨unit, todo, .failing fault⟩ = 0 := rfl
      have own' : Worker.committed ⟨unit, todo, .leaving⟩ = 0 := rfl
      have same := Measure.total_set Worker.committed ⟨unit, todo, .leaving⟩ at_i
      have others := Measure.total_eraseIdx Worker.committed at_i
      have few := total_le_length Worker.committed_le_one (p.crew.eraseIdx i)
      rw [List.length_eraseIdx_of_lt (List.getElem?_eq_some_iff.1 at_i).1] at few
      have some_crew : i < p.crew.length := (List.getElem?_eq_some_iff.1 at_i).1
      have bound := hp.length_crew_le
      rw [committed, crew]
      omega

/-! ## The report -/

section Report

variable {plan : Plan σ} {trail : Trail (Heard σ)} {p : Pool (Heard σ)}

/-- A failure is noted by the end exactly if some call was answered with one. -/
theorem Reachable.failure_ne_none_iff (fresh : trail.calls = [])
    (h : Reachable plan.overheard trail p) (finished : p.caller = .finished) :
    p.shared.failure ≠ none ↔ ∃ call ∈ p.shared.trail.calls, call.failed = true := by
  rw [Ne, h.failure_eq_none_iff fresh finished]
  constructor
  · intro refused
    by_contra none_refused
    refine refused fun call hc => ?_
    rw [← Bool.not_eq_true]
    exact fun failed => none_refused ⟨call, hc, failed⟩
  · rintro ⟨call, hc, failed⟩ answered
    rw [answered call hc] at failed
    cases failed

/-- What was told is contained in what any run tells that leaves nothing out. -/
theorem Reachable.told_subperm {τ : Type} {trail' : Trail (Heard τ)} (fresh : trail.Fresh)
    (atomic : plan.atomic = true) (h : Reachable plan.overheard trail p)
    (exhaustive : Exhaustive plan.scope plan.start trail') :
    p.shared.trail.told.Subperm trail'.told := by
  have sound := h.sound fresh.taken
  refine exhaustive.subperm_told (h.nodup_taken fresh.taken atomic) ?_ ?_
  · exact fun t ht => sound.reach t (sound.taken t ht)
  · intro word
    obtain ⟨lost, balance, -⟩ := h.balanced fresh.taken (done_wordLedger plan word fresh)
    -- what was told, owed and lost together is what was due
    calc p.shared.trail.told.count word
        ≤ p.shared.trail.told.count word +
            Measure.total (wordLedger plan word).owed p.crew + lost := by omega
      _ = Measure.total (plan.scope.yieldOf word) p.shared.trail.taken := balance

end Report

/-- **What a failure does.** Whatever the listener answers and whoever moves: a run is reported as an
error exactly if some call was answered with a failure. The error is the fault that was noted first, itself
if it is about an exploration and else wrapped with the text of the unit that failed, and the fault is that
of a call with a word of that unit; the journal has one error more, and none more if there was no failure.
Once a failure was noted, a worker that only then looks for failures touches nothing but the count, and
fewer units are submitted than there may be workers. In the atomic mode, at any moment, the words told are
among those of any run on a pool that ends without a refusal, with their multiplicities. -/
theorem first_failure_is_reported (e : Explorer) (crew : Crew) (listener : Listener σ) (start : Text)
    (journal : Journal) (heard : σ) {p : Pool (Heard σ)}
    (reachable : Reachable (e.plan crew listener.overheard start)
      (e.openTrail start journal ([], heard)) p) :
    let plan := e.plan crew listener.overheard start
    let trail := e.openTrail start journal ([], heard)
    let ended := e.afterPool start p
    (p.caller = .finished →
        ((∃ fault, ended.result = .error fault) ↔
          ∃ call ∈ p.shared.trail.calls, call.failed = true)) ∧
      (∀ reported, ended.result = .error reported → ∃ unit fault,
        NotedFirst plan trail unit fault p ∧
          reported = (if fault.isExploration then fault else .wrapped unit fault) ∧
          (∃ call ∈ p.shared.trail.calls, call.fault = some fault ∧
            call.word ∈ outputs .word (e.scope.applications unit)) ∧
          ended.journal.errors = journal.errors ++ [failureEntry unit fault]) ∧
      ((∀ fault, ended.result ≠ .error fault) → ended.journal.errors = journal.errors) ∧
      (p.shared.failure ≠ none →
        (∀ i w, p.crew[i]? = some w → w.point = .entering → ∀ ms, ∀ deed ∈ deeds plan p (some i) ms,
          deed.2 = deed.1 ∨ deed.2 = deed.1.countDown) ∧
        ∀ ms, submissions plan p ms ≤ crew.size - 1) ∧
      (crew.atomic = true → ∀ (τ : Type) (e' : Explorer) (crew' : Crew) (listener' : Listener τ)
        (journal' : Journal) (heard' : τ) (p' : Pool (Heard τ)), e'.scope = e.scope →
          crew'.atomic = true → listener'.Assents →
          Reachable (e'.plan crew' listener'.overheard start)
            (e'.openTrail start journal' ([], heard')) p' → p'.caller = .finished →
          p.shared.trail.told.Subperm p'.shared.trail.told) := by
  intro plan trail ended
  have fresh := e.fresh_openTrail start journal heard
  have overheard : Reachable (e.plan crew listener start).overheard trail p := reachable
  have result : ended.result = p.shared.failure.elim
      (.ok (Report.ofTrail e.strategy start p.shared.trail 0)) .error := e.result_afterPool start p
  have errors : ended.journal.errors = p.shared.trail.journal.errors := e.errors_afterPool start p
  have opened : trail.journal.errors = journal.errors := e.errors_openTrail start journal _
  -- an error is reported exactly if a failure was noted
  have reported_iff : ∀ fault, ended.result = .error fault ↔ p.shared.failure = some fault := by
    intro fault
    rw [result]
    cases p.shared.failure <;> simp
  refine ⟨fun finished => ?_, fun reported hr => ?_, fun no_error => ?_, fun noted => ⟨?_, ?_⟩, ?_⟩
  · rw [← overheard.failure_ne_none_iff fresh.calls finished, Option.ne_none_iff_exists']
    exact exists_congr reported_iff
  · rw [reported_iff] at hr
    rcases reachable.notedFirst with ⟨calm, -⟩ | ⟨unit, fault, story, noted, logged⟩
    · rw [hr] at calm
      cases calm
    · refine ⟨unit, fault, story, ?_, ?_, ?_⟩
      · rw [hr] at noted
        exact Option.some.inj noted
      · have story' : NotedFirst (e.plan crew listener start).overheard trail unit fault p := story
        have blamed := story'.exists_call fresh.taken
        exact blamed
      · rw [errors, logged, opened]
  · rcases reachable.notedFirst with ⟨-, logged⟩ | ⟨unit, fault, -, noted, -⟩
    · rw [errors, logged, opened]
    · exact absurd ((reported_iff _).2 noted) (no_error _)
  · obtain ⟨first, noted⟩ := Option.ne_none_iff_exists'.1 noted
    intro i w at_i entering ms
    exact deeds_of_late noted at_i (.inl entering) ms
  · obtain ⟨first, noted⟩ := Option.ne_none_iff_exists'.1 noted
    intro ms
    have few : submissions plan p ms ≤ p.committed := submissions_le_committed reachable noted ms
    have bound : p.committed < crew.size := reachable.committed_lt noted
    omega
  · intro atomic τ e' crew' listener' journal' heard' p' scope atomic' assents' reachable' finished'
    have fresh' := e'.fresh_openTrail start journal' heard'
    have overheard' : Reachable (e'.plan crew' listener' start).overheard
      (e'.openTrail start journal' ([], heard')) p' := reachable'
    have calm' := overheard'.calm assents' fresh'.calls
    have exhaustive : Exhaustive e'.scope start p'.shared.trail :=
      overheard'.exhaustive assents'.stays fresh' atomic' finished' calm'
    rw [scope] at exhaustive
    exact overheard.told_subperm fresh atomic exhaustive

/-- A run of two workers whose words are refused: one of them, on `S`, has noted a refusal, and the other,
on `T`, has not looked for failures yet. -/
def convergingRefusal : List Move :=
  convergingMoves ++ [.work 0, .work 0, .begin 0] ++ List.replicate 6 (.work 0)

theorem first_failure_is_reported_converging :
    let plan := convergingPlan (.refusing (.broken "full"))
    let noted := after plan convergingTrail convergingRefusal
    let p := after plan convergingTrail
      (convergingRefusal ++ [.work 0, .work 0, .work 0, .caller, .caller])
    (p.caller = .finished ∧ ∃ unit fault, NotedFirst plan convergingTrail unit fault p ∧
        (converging.afterPool ['S'] p).result =
          .error (if fault.isExploration then fault else .wrapped unit fault)) ∧
      noted.shared.failure ≠ none ∧
      (∀ ms, ∀ deed ∈ deeds plan noted (some 1) ms, deed.2 = deed.1 ∨ deed.2 = deed.1.countDown) ∧
      ∀ ms, submissions plan noted ms ≤ 1 := by
  intro plan noted p
  have reachable : Reachable plan convergingTrail p := reachable_after _ _ _
  have midway : Reachable plan convergingTrail noted := reachable_after _ _ _
  have ended := first_failure_is_reported converging { workers := some 2 }
    (.refusing (.broken "full")) ['S'] {} () reachable
  have winding := first_failure_is_reported converging { workers := some 2 }
    (.refusing (.broken "full")) ['S'] {} () midway
  -- the run that has ended
  have failure : p.shared.failure = some (.wrapped ['S'] (.broken "full")) := by decide
  have result : (converging.afterPool ['S'] p).result = .error (.wrapped ['S'] (.broken "full")) := by
    rw [converging.result_afterPool, failure]
    rfl
  obtain ⟨unit, fault, story, reported, -⟩ := ended.2.1 _ result
  -- the run in which the failure was just noted
  have failed : noted.shared.failure ≠ none := by decide
  have late : noted.crew[1]? = some ⟨['T'], Scope.converging.grammar.rules, .entering⟩ := by decide
  obtain ⟨nothing, few⟩ := winding.2.2.2.1 failed
  refine ⟨⟨by decide, unit, fault, story, ?_⟩, failed, nothing 1 _ late rfl, few⟩
  rw [← reported]
  exact result

end Pool

end SemiThue.Exploration
