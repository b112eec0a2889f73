/-
How often a text is taken up when two workers may find it new.

In the relaxed mode a worker looks a live text up in one move and marks it in another, and between the
two any other worker may find the same text new. Each of them schedules it, so it is taken up more than
once. But only while the text is unmarked can a worker find it new; and a worker that found it new has it
in hand until it marks it. So all the workers that will ever schedule a text have it in hand when the
first of them marks it, and there are no more of them than there may be workers.

`Pool.sought` counts the places at which a text is, together with the workers that have found it new.
Once the text is marked that number does not grow any more, and when it is marked only workers count. The
start is marked from the beginning, when it is in one place, and so it is taken up once.

Nothing is lost in the relaxed mode either: what `Reachable.mem_taken_iff_reach` says holds in both.
-/
import SemiThue.Proofs.Runs

set_option autoImplicit false

namespace SemiThue.Exploration

variable {σ τ : Type}

/-- How often a worker has a text in its custody, or has found it new and will mark it. -/
def Worker.seeks (t : Text) (w : Worker) : Nat :=
  match w.point with
  | .marking u => if u = t then 1 else 0
  | _ => w.holds t

theorem Worker.seeks_le_one (t : Text) (w : Worker) : w.seeks t ≤ 1 := by
  have one (u : Text) : (if u = t then 1 else 0) ≤ 1 := by split <;> omega
  obtain ⟨unit, todo, point⟩ := w
  cases point with
  | entering => exact one unit
  | opening => exact one unit
  | marking u => exact one u
  | checking u => exact one u
  | counting u => exact one u
  | submitting u => exact one u
  | _ => exact Nat.zero_le 1

/-- **Once a text was come upon it is not sought any further**: a worker passes it on, or drops it. -/
theorem Worker.Turn.seeks_le {plan : Plan σ} {s s' : Shared σ} {w w' : Worker}
    (h : Worker.Turn plan s w s' w') {t : Text} (visited : t ∈ s.visited) :
    s'.queue.toList.count t + w'.seeks t + s'.trail.taken.count t ≤
      s.queue.toList.count t + w.seeks t + s.trail.taken.count t := by
  cases h with
  | takeUp =>
    simp only [Worker.seeks, Worker.holds, Trail.taken_opened, List.count_cons, beq_iff_eq]
    omega
  | @claim unit todo u atomic new =>
    -- what is claimed is another text
    have hu : u ≠ t := fun hu => new (hu ▸ visited)
    simp only [Worker.seeks, Worker.holds, if_neg hu]
    omega
  | @find unit todo u relaxed new =>
    have hu : u ≠ t := fun hu => new (hu ▸ visited)
    simp only [Worker.seeks, Worker.holds, if_neg hu]
    omega
  | submit =>
    simp only [Worker.seeks, Worker.holds, Queue.toList_push, List.count_append, List.count_singleton,
      beq_iff_eq]
    omega
  | announceWord => simp [Worker.seeks, Worker.holds]
  | announceLive => simp [Worker.seeks, Worker.holds]
  | announceNothing => simp [Worker.seeks, Worker.holds]
  | turnAway => simp [Worker.seeks, Worker.holds]
  | giveUp => simp [Worker.seeks, Worker.holds]
  | shutOut => simp [Worker.seeks, Worker.holds, Shared.countDown]
  | _ => exact Nat.le_refl _

namespace Pool

/-- **How often a text is sought**: at how many places it is, and how many workers have found it new. -/
def sought (plan : Plan σ) (t : Text) (p : Pool σ) : Nat :=
  p.caller.holds plan.start t + p.shared.queue.toList.count t +
    Measure.total (Worker.seeks t) p.crew + p.shared.trail.taken.count t

section Bound

variable {plan : Plan σ} {trail : Trail σ} {p q : Pool σ} {t : Text}

/-- A text that neither waits nor was taken up, and is not the start, is sought by workers only. -/
theorem sought_le_length (queue : t ∉ p.shared.queue.toList) (taken : t ∉ p.shared.trail.taken)
    (other : t ≠ plan.start) : p.sought plan t ≤ p.crew.length := by
  have caller : p.caller.holds plan.start t = 0 := by
    cases p.caller <;> simp [Caller.holds, other.symm]
  have crew := total_le_length (Worker.seeks_le_one t) p.crew
  unfold sought
  rw [caller, List.count_eq_zero.2 queue, List.count_eq_zero.2 taken]
  omega

/-- **Once a text was come upon, no move has it sought more often.** -/
theorem Turn.sought_le {m : Move} (turn : Turn plan p m q) (visited : t ∈ p.shared.visited) :
    q.sought plan t ≤ p.sought plan t := by
  unfold sought
  cases turn with
  | count caller =>
    simp only [caller, Caller.holds, Shared.countUp]
    exact Nat.le_refl _
  | submit caller =>
    simp only [caller, Caller.holds, Queue.toList_push, List.count_append, List.count_singleton,
      beq_iff_eq]
    omega
  | close caller =>
    simp only [caller, Caller.holds]
    exact Nat.le_refl _
  | finish caller =>
    simp only [caller, Caller.holds]
    exact Nat.le_refl _
  | @begin i unit queue taken free =>
    obtain ⟨hi, hq⟩ := Queue.take?_eq_some taken
    obtain ⟨hlt, hi⟩ := List.getElem?_eq_some_iff.1 hi
    have count := (List.getElem_cons_eraseIdx_perm hlt).count_eq t
    rw [hi, ← hq, List.count_cons] at count
    simp only [beq_iff_eq] at count
    simp only [Measure.total_append, Measure.total_cons, Measure.total_nil, Worker.seeks, Worker.holds]
    omega
  | @work i w w' shared at_i turn =>
    have own := turn.seeks_le visited
    have crew := Measure.total_set (Worker.seeks t) w' at_i
    simp only
    omega
  | @leave i w at_i point =>
    have crew := Measure.total_eraseIdx (Worker.seeks t) at_i
    simp only [Shared.countDown]
    omega

/-- A text that was not come upon before a move is sought by workers only after it: one of them may have
come upon it, and has it in hand. -/
theorem Turn.sought_le_length {m : Move} (turn : Turn plan p m q) (sound : p.Sound plan)
    (new : t ∉ p.shared.visited) : q.sought plan t ≤ q.crew.length := by
  have other : t ≠ plan.start := fun ht => new (ht ▸ sound.start)
  have waits : t ∉ p.shared.queue.toList := fun ht => new (sound.queue t ht)
  have taken : t ∉ p.shared.trail.taken := fun ht => new (sound.taken t ht)
  cases turn with
  | submit =>
    refine Pool.sought_le_length (fun ht => ?_) taken other
    rw [Queue.toList_push, List.mem_append, List.mem_singleton] at ht
    exact ht.elim waits other
  | begin hu =>
    obtain ⟨-, hq⟩ := Queue.take?_eq_some hu
    exact Pool.sought_le_length (fun ht => waits (List.mem_of_mem_eraseIdx (hq ▸ ht))) taken other
  | @work i w w' shared at_i turn =>
    have own := sound.crew w (List.mem_of_getElem? at_i)
    refine Pool.sought_le_length (fun ht => ?_) (fun ht => ?_) other
    · exact (turn.mem_queue own ht).elim waits new
    · rcases turn.mem_taken ht with ht | ⟨todo, rfl, -⟩
      · exact taken ht
      · exact new own.unit
  | _ => exact Pool.sought_le_length waits taken other

/-- **How often a text can be sought.** The start is sought once, and any other text as often as there
may be workers. -/
theorem Reachable.sought_le (fresh : trail.taken = []) (h : Reachable plan trail p) (t : Text) :
    p.sought plan t ≤ plan.workers ∧ (t = plan.start → p.sought plan t ≤ 1) := by
  refine h.keeps (P := fun p => p.sought plan t ≤ plan.workers ∧
    (t = plan.start → p.sought plan t ≤ 1)) ?_ ?_
  · have once : (Pool.initial plan.start trail).sought plan t ≤ 1 := by
      simp only [sought, Pool.initial, fresh, Caller.holds, Queue.toList_empty, List.count_nil,
        Measure.total_nil]
      split <;> omega
    exact ⟨Nat.le_trans once plan.workers_pos, fun _ => once⟩
  · intro p q m hp ih turn
    have sound := hp.sound fresh
    by_cases visited : t ∈ p.shared.visited
    · have less := turn.sought_le visited
      exact ⟨Nat.le_trans less ih.1, fun ht => Nat.le_trans less (ih.2 ht)⟩
    · refine ⟨?_, fun ht => absurd (ht ▸ sound.start) visited⟩
      have few := turn.length_crew_le hp.length_crew_le
      exact Nat.le_trans (turn.sought_le_length sound visited) few

/-- Whatever was taken up was sought. -/
theorem count_taken_le_sought (p : Pool σ) : p.shared.trail.taken.count t ≤ p.sought plan t :=
  Nat.le_add_left _ _

end Bound

/-! ## The two strategies -/

/-- **Relaxed runs do the work of a sequential run, and some of it again.** Let a run on a pool be
completed, in the relaxed mode or the atomic one, with any number of workers and in any order of moves,
and a sequential run over the same grammar and margin from the same start as well. The same words were
told and the same texts were taken up: the start once, and every other one at least once and at most as
often as there may be workers. -/
theorem relaxed_agrees_with_sequential {e e' : Explorer} (scope : e'.scope = e.scope)
    (sequential : e'.strategy = .sequential) {crew : Crew} {listener : Listener σ}
    {listener' : Listener τ} (start : Text) (journal journal' : Journal) (heard : σ) (heard' : τ)
    {p : Pool (Heard σ)}
    (reachable : Reachable (e.plan crew listener.overheard start)
      (e.openTrail start journal ([], heard)) p)
    (finished : p.caller = .finished) (completed : (e.afterPool start p).Completed)
    (completed' : (e'.run listener'.overheard start journal' ([], heard')).Completed) :
    let ended := e.afterPool start p
    let outcome := Sequential.run e'.scope listener'.overheard start
      (e'.openTrail start journal' ([], heard'))
    let ended' := e'.run listener'.overheard start journal' ([], heard')
    ended' = e'.afterSequential start outcome ∧
      (∀ word, word ∈ ended.heard.1.map Call.word ↔ word ∈ ended'.heard.1.map Call.word) ∧
      (∀ t, t ∈ p.shared.trail.taken ↔ t ∈ outcome.state.trail.taken) ∧
      p.shared.trail.taken.count start = 1 ∧
      ∀ t ∈ outcome.state.trail.taken,
        1 ≤ p.shared.trail.taken.count t ∧ p.shared.trail.taken.count t ≤ crew.size := by
  intro ended outcome ended'
  have fresh := e.fresh_openTrail start journal heard
  have same := Explorer.endsAs_afterPool reachable finished
  have obliging := same.obliging completed
  have hended' : ended' = e'.afterSequential start outcome :=
    e'.run_of_sequential start sequential _ _ _
  have loop : Exhaustive e.scope start outcome.state.trail := by
    rw [← scope]
    exact Sequential.exhaustive_of_completed (e'.fresh_openTrail start journal' heard')
      ((e'.reports_afterSequential_iff start outcome).1 (hended' ▸ completed'.reports))
  have pool : ∀ t, t ∈ p.shared.trail.taken ↔ e.scope.Reach start t :=
    obliging.reachable.mem_taken_iff_reach listener.assents_obliging.stays.overheard fresh.taken finished
      (obliging.calm completed.reports)
  have least : ∀ t, e.scope.Reach start t → 1 ≤ p.shared.trail.taken.count t := fun t reach =>
    List.count_pos_iff.2 ((pool t).2 reach)
  have most : ∀ t, p.shared.trail.taken.count t ≤ crew.size := fun t =>
    Nat.le_trans (count_taken_le_sought p) (reachable.sought_le fresh.taken t).1
  have once : p.shared.trail.taken.count start ≤ 1 :=
    Nat.le_trans (count_taken_le_sought p) ((reachable.sought_le fresh.taken start).2 rfl)
  refine ⟨hended', fun word => ?_, fun t => ?_, ?_, fun t ht => ?_⟩
  · rw [same.mem_told_iff completed, (e'.ends_run _ _ _ _).mem_told_iff completed', scope]
  · rw [pool, loop.mem_taken]
  · exact Nat.le_antisymm once (least start .start)
  · exact ⟨least t ((loop.mem_taken t).1 ht), most t⟩

/-- An explorer with two workers in the relaxed mode. `S` gives `A` and `B`, and both of them give `C`. -/
def diamond : Explorer where
  scope :=
    { grammar :=
        { bound := 1
          terminals := [['a']]
          rules := [.ofChar 'S' ['A'], .ofChar 'S' ['B'], .ofChar 'A' ['C'], .ofChar 'B' ['C'],
            .ofChar 'C' ['a']]
          bound_pos := Nat.one_pos }
      margin := 0 }
  strategy := .concurrent (.ofSucc 1 false)

/-- One worker is through with `S`. Then one finds `C` new and leaves it at that until another one, on
`B`, has found it new as well; so `C` is scheduled twice. -/
def diamondMoves : List Move :=
  let goesOn (i n : Nat) : List Move := List.replicate n (.work i)
  [[.caller, .caller, .begin 0], goesOn 0 34, [.begin 0, .begin 0], goesOn 0 15, goesOn 1 19,
    goesOn 0 24, [.begin 0], goesOn 0 25, [.begin 0], goesOn 0 25, [.caller, .caller]].flatten

theorem relaxed_agrees_with_sequential_diamond :
    let plan := diamond.plan { workers := some 2, atomic := false } Listener.taking.overheard ['S']
    let p := after plan (diamond.openTrail ['S'] {} ([], ())) diamondMoves
    let ended := { diamond with strategy := .sequential }.run Listener.taking.overheard ['S'] {}
      ([], ())
    p.caller = .finished ∧ p.shared.trail.taken = [['C'], ['C'], ['B'], ['A'], ['S']] ∧
      ∀ word, word ∈ (diamond.afterPool ['S'] p).heard.1.map Call.word ↔
        word ∈ ended.heard.1.map Call.word := by
  intro plan p ended
  have reachable : Reachable plan (diamond.openTrail ['S'] {} ([], ())) p := reachable_after _ _ _
  have finished : p.caller = .finished := by decide +kernel
  have taken : p.shared.trail.taken = [['C'], ['C'], ['B'], ['A'], ['S']] := by decide +kernel
  clear_value p
  have completed : (diamond.afterPool ['S'] p).Completed :=
    Explorer.completed_afterPool Listener.assents_taking reachable finished
  have completed' : ended.Completed :=
    Explorer.completed_run_of_sequential rfl Listener.assents_taking _ _ _
  have scope : { diamond with strategy := .sequential }.scope = diamond.scope := rfl
  have agrees := relaxed_agrees_with_sequential scope rfl ['S'] {} {} () () reachable finished completed
    completed'
  exact ⟨finished, taken, agrees.2.1⟩

end Pool

end SemiThue.Exploration
