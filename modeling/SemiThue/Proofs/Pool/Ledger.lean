/-
What is due for the texts that were taken up.

For each text taken up, every rule is to be applied once, every result is to be counted, every word to be
told and every live text to be claimed. A worker does that bit by bit, so at any moment some of it is done
and the worker owes the rest. A `Ledger` is a quantity of this kind: what was done, what a worker owes,
and what is due for a text. If each turn of one worker keeps the balance, then what was done and what the
crew owes together are what is due for the texts that were taken up, in every reachable state. What a
worker owed when it met a fault is lost; while a state is calm, nothing was lost, unless the listener
asked to leave. So all that is said here of calm states is said of listeners that stay.

Two ledgers are kept here, one of counts by verdict and one of words told. Live texts are no matter of
counting: they are claimed, or they are still with a worker. That is a `Duty`.
-/
import SemiThue.Proofs.Exhaustive
import SemiThue.Proofs.Pool.Sound

set_option autoImplicit false

namespace SemiThue.Exploration

variable {σ : Type}

/-! ## What a worker owes -/

/-- The applications that a worker has not made yet. -/
def Worker.rest (plan : Plan σ) (w : Worker) : List Application :=
  w.todo.map (plan.scope.apply w.unit)

/-- The results with a given verdict that a worker has not counted yet. -/
def Worker.uncounted (plan : Plan σ) (v : Verdict) (w : Worker) : List Text :=
  match w.point with
  | .entering | .opening | .failing _ | .leaving => []
  | _ => outputs v (w.rest plan)

/-- The results with a given verdict that a worker has not settled yet: words to be told, and live texts
to be claimed. -/
def Worker.unsettled (plan : Plan σ) (v : Verdict) (w : Worker) : List Text :=
  match w.point with
  | .entering | .opening | .failing _ | .leaving => []
  | .recording a | .linking a | .announcing a => outputs v (a :: w.rest plan)
  | .telling word => (if v = .word then [word] else []) ++ outputs v (w.rest plan)
  | .claiming t | .marking t => (if v = .live then [t] else []) ++ outputs v (w.rest plan)
  | _ => outputs v (w.rest plan)

/-! ## Ledgers -/

/-- **A ledger**: what was done, what a worker owes, and what is due for a text taken up. -/
structure Ledger (plan : Plan σ) where
  /-- What was done. -/
  done : Trail σ → Nat
  /-- What a worker owes. -/
  owed : Worker → Nat
  /-- What is due for a text. -/
  due : Text → Nat
  /-- Nothing is owed by a worker that comes, and nothing by one that goes. -/
  idle : ∀ w : Worker, w.point = .entering ∨ w.point = .leaving → owed w = 0
  /-- A turn keeps the balance, and only a fault is a reason to lose anything. -/
  turn : ∀ {s s' : Shared σ} {w w' : Worker}, Worker.Turn plan s w s' w' → w.Sound plan s.visited →
    ∃ lost, done s'.trail + owed w' + Measure.total due s.trail.taken + lost =
        done s.trail + owed w + Measure.total due s'.trail.taken ∧
      (plan.listener.Stays → s'.failure = none → w'.Calm → lost = 0)

/-- A state is in balance: what was done, owed and lost is what is due. -/
def Ledger.Balanced {plan : Plan σ} (ledger : Ledger plan) (p : Pool σ) : Prop :=
  ∃ lost, ledger.done p.shared.trail + Measure.total ledger.owed p.crew + lost =
      Measure.total ledger.due p.shared.trail.taken ∧
    (plan.listener.Stays → p.Calm → lost = 0)

namespace Pool

variable {plan : Plan σ} {trail : Trail σ} {p q : Pool σ} {ledger : Ledger plan}

theorem Turn.balanced {m : Move} (turn : Turn plan p m q) (sound : p.Sound plan)
    (h : ledger.Balanced p) : ledger.Balanced q := by
  obtain ⟨lost, balance, calm⟩ := h
  have calm : plan.listener.Stays → q.Calm → lost = 0 := fun stays hq =>
    calm stays (turn.calm_of_calm hq)
  cases turn with
  | count => exact ⟨lost, balance, calm⟩
  | submit => exact ⟨lost, balance, calm⟩
  | close => exact ⟨lost, balance, calm⟩
  | finish => exact ⟨lost, balance, calm⟩
  | @begin i unit queue taken free =>
    refine ⟨lost, ?_, calm⟩
    have comes : ledger.owed ⟨unit, plan.scope.grammar.rules, .entering⟩ = 0 :=
      ledger.idle _ (.inl rfl)
    rw [Measure.total_append, Measure.total_cons, Measure.total_nil, comes]
    exact balance
  | @work i w w' shared at_i turn =>
    have own := sound.crew w (List.mem_of_getElem? at_i)
    obtain ⟨lost', balance', calm'⟩ := ledger.turn turn own
    have crew := Measure.total_set ledger.owed w' at_i
    refine ⟨lost + lost', ?_, fun stays hq => ?_⟩
    · simp only
      omega
    · -- the state afterwards is calm, so neither had anything been lost nor was it now
      obtain ⟨⟨failure, hw⟩, -⟩ := (calm_iff_of_set at_i w').1 hq
      rw [calm stays hq, calm' stays failure hw]
  | @leave i w at_i point =>
    refine ⟨lost, ?_, calm⟩
    have goes : ledger.owed w = 0 := ledger.idle w (.inr point)
    have crew := Measure.total_eraseIdx ledger.owed at_i
    rw [goes] at crew
    rw [← crew] at balance
    exact balance

/-- **The books balance in every reachable state.** -/
theorem Reachable.balanced (fresh : trail.taken = []) (none_done : ledger.done trail = 0)
    (h : Reachable plan trail p) : ledger.Balanced p := by
  refine h.keeps ⟨0, ?_, fun _ _ => rfl⟩ fun hp hb ht => ht.balanced (hp.sound fresh) hb
  simp only [Pool.initial, fresh, none_done, Measure.total_nil]

end Pool

/-! ## Duties

A duty is a ledger without numbers: for each text taken up some things are to be done, and each of them is
done or still with a worker. -/

/-- **A duty**: what is due for a text taken up, what a worker still has to do, and when a thing is done. -/
structure Duty (plan : Plan σ) (α : Type) where
  /-- What is due for a text. -/
  due : Text → List α
  /-- What a worker still has to do. -/
  owed : Worker → List α
  /-- When a thing is done, given what was come upon and the trail. -/
  Done : Visited → Trail σ → α → Prop
  /-- What is done stays done. -/
  stays : ∀ {s s' : Shared σ} {w w' : Worker}, Worker.Turn plan s w s' w' →
    ∀ a, Done s.visited s.trail a → Done s'.visited s'.trail a
  /-- A worker does a thing, or still has to do it, unless it has met a fault. -/
  turn : ∀ {s s' : Shared σ} {w w' : Worker}, Worker.Turn plan s w s' w' → w.Sound plan s.visited →
    plan.listener.Stays → w'.Calm → ∀ a ∈ owed w, Done s'.visited s'.trail a ∨ a ∈ owed w'
  /-- Whoever takes a text up has everything to do that is due for it. -/
  takes : ∀ {s s' : Shared σ} {w w' : Worker}, Worker.Turn plan s w s' w' → w.Sound plan s.visited →
    ∀ t ∈ s'.trail.taken, t ∈ s.trail.taken ∨ ∀ a ∈ due t, a ∈ owed w'
  /-- Whoever leaves has done everything. -/
  leaves : ∀ w : Worker, w.point = .leaving → owed w = []

/-- What is due for the texts taken up is done, or still with a worker. -/
def Duty.Met {plan : Plan σ} {α : Type} (duty : Duty plan α) (p : Pool σ) : Prop :=
  ∀ t ∈ p.shared.trail.taken, ∀ a ∈ duty.due t,
    duty.Done p.shared.visited p.shared.trail a ∨ ∃ w ∈ p.crew, a ∈ duty.owed w

namespace Pool

variable {α : Type} {plan : Plan σ} {trail : Trail σ} {p q : Pool σ} {duty : Duty plan α}

theorem Turn.met {m : Move} (turn : Turn plan p m q) (sound : p.Sound plan)
    (stays : plan.listener.Stays) (calm : q.Calm) (h : duty.Met p) : duty.Met q := by
  cases turn with
  | count => exact h
  | submit => exact h
  | close => exact h
  | finish => exact h
  | begin =>
    intro t ht a ha
    rcases h t ht a ha with done | ⟨w, hw, hwa⟩
    · exact .inl done
    · exact .inr ⟨w, List.mem_append_left _ hw, hwa⟩
  | @work i w w' shared at_i turn =>
    have own := sound.crew w (List.mem_of_getElem? at_i)
    have calm' : w'.Calm := ((calm_iff_of_set at_i w').1 calm).1.2
    have stands : ∀ a, a ∈ duty.owed w' → ∃ x ∈ p.crew.set i w', a ∈ duty.owed x := fun a ha =>
      ⟨w', (mem_set_crew_iff at_i w').2 (.inl rfl), ha⟩
    intro t ht a ha
    -- a text just taken up has everything with its worker
    rcases duty.takes turn own t ht with ht | all
    · rcases h t ht a ha with done | ⟨x, hx, hxa⟩
      · exact .inl (duty.stays turn a done)
      · rcases (mem_crew_iff at_i).1 hx with rfl | hx
        · exact (duty.turn turn own stays calm' a hxa).imp_right (stands a)
        · exact .inr ⟨x, (mem_set_crew_iff at_i w').2 (.inr hx), hxa⟩
    · exact .inr (stands a (all a ha))
  | @leave i w at_i point =>
    intro t ht a ha
    rcases h t ht a ha with done | ⟨x, hx, hxa⟩
    · exact .inl done
    · rcases (mem_crew_iff at_i).1 hx with rfl | hx
      · rw [duty.leaves x point] at hxa
        exact absurd hxa List.not_mem_nil
      · exact .inr ⟨x, hx, hxa⟩

/-- **While a run is calm, no duty is neglected.** -/
theorem Reachable.met (duty : Duty plan α) (stays : plan.listener.Stays) (fresh : trail.taken = [])
    (h : Reachable plan trail p) (calm : p.Calm) : duty.Met p := by
  refine h.keeps (P := fun p => p.Calm → duty.Met p) ?_ ?_ calm
  · intro _ t ht
    simp [Pool.initial, fresh] at ht
  · intro p q m hp ih turn calm
    exact turn.met (hp.sound fresh) stays calm (ih (turn.calm_of_calm calm))

/-- When the caller has its answer, everything is done. -/
theorem Reachable.done_of_finished (duty : Duty plan α) (stays : plan.listener.Stays)
    (fresh : trail.taken = []) (h : Reachable plan trail p) (finished : p.caller = .finished) (calm : p.Calm) {t : Text}
    (ht : t ∈ p.shared.trail.taken) {a : α} (ha : a ∈ duty.due t) : duty.Done p.shared.visited p.shared.trail a := by
  obtain ⟨-, crew⟩ := h.joined.empty (by simp [finished])
  rcases h.met duty stays fresh calm t ht a ha with done | ⟨w, hw, -⟩
  · exact done
  · rw [crew] at hw
    exact absurd hw List.not_mem_nil

end Pool

/-! ## Counts by verdict -/

theorem Worker.rest_of_fresh {plan : Plan σ} {v : Visited} {unit : Text} {todo : List Rule}
    (sound : Worker.Sound plan v ⟨unit, todo, .opening⟩) (point : Point) :
    Worker.rest plan ⟨unit, todo, point⟩ = plan.scope.applications unit := by
  have all : todo = plan.scope.grammar.rules := sound.fresh (.inr rfl)
  rw [Worker.rest, all]
  rfl

/-- A turn counts what the worker has not counted yet. -/
theorem Worker.Turn.count_add_uncounted {plan : Plan σ} {s s' : Shared σ} {w w' : Worker}
    (h : Worker.Turn plan s w s' w') (sound : w.Sound plan s.visited) (v : Verdict) :
    ∃ lost, s'.trail.tally.ofVerdict v + (w'.uncounted plan v).length +
          Measure.total (plan.scope.yield v) s.trail.taken + lost =
        s.trail.tally.ofVerdict v + (w.uncounted plan v).length +
          Measure.total (plan.scope.yield v) s'.trail.taken ∧
      (plan.listener.Stays → s'.failure = none → w'.Calm → lost = 0) := by
  cases h with
  | takeUp =>
    -- from now on everything is due for the unit, and the worker owes it all
    refine ⟨0, ?_, fun _ _ _ => rfl⟩
    have all := Worker.rest_of_fresh sound .applying
    simp only [Worker.uncounted, Trail.tally_opened, Trail.taken_opened, Measure.total_cons, all,
      Scope.yield, List.length_nil]
    omega
  | @apply unit rule todo =>
    refine ⟨0, ?_, fun _ _ _ => rfl⟩
    have counted := Tally.ofVerdict_count_add s.trail.tally (plan.scope.apply unit rule)
      (todo.map (plan.scope.apply unit)) v
    simp only [Worker.uncounted, Worker.rest, Trail.tally_counted, Trail.taken_counted, List.map_cons]
    omega
  | announceWord => exact ⟨0, by simp [Worker.uncounted, Worker.rest], fun _ _ _ => rfl⟩
  | announceLive => exact ⟨0, by simp [Worker.uncounted, Worker.rest], fun _ _ _ => rfl⟩
  | announceNothing => exact ⟨0, by simp [Worker.uncounted, Worker.rest], fun _ _ _ => rfl⟩
  | @refused unit todo =>
    -- what is left of the unit is never counted
    refine ⟨(outputs v (todo.map (plan.scope.apply unit))).length, ?_, fun _ _ calm => absurd rfl (calm _)⟩
    simp only [Worker.uncounted, Worker.rest, List.length_nil]
    omega
  | @desert unit todo word heard fault answer exit =>
    refine ⟨(outputs v (todo.map (plan.scope.apply unit))).length, ?_,
      fun stays => (stays.false_of_exit answer exit).elim⟩
    simp only [Worker.uncounted, Worker.rest, List.length_nil]
    omega
  | @shutOut unit todo =>
    refine ⟨(outputs v (todo.map (plan.scope.apply unit))).length, ?_, fun _ _ calm => absurd rfl (calm _)⟩
    simp only [Worker.uncounted, Worker.rest, Shared.countDown, List.length_nil]
    omega
  | _ => exact ⟨0, rfl, fun _ _ _ => rfl⟩

/-- **Results are counted once.** -/
def countLedger (plan : Plan σ) (v : Verdict) : Ledger plan where
  done trail := trail.tally.ofVerdict v
  owed w := (w.uncounted plan v).length
  due := plan.scope.yield v
  idle w point := by
    rcases point with point | point <;> simp only [Worker.uncounted, point, List.length_nil]
  turn h sound := h.count_add_uncounted sound v

theorem done_countLedger (plan : Plan (Heard σ)) (v : Verdict) {trail : Trail (Heard σ)}
    (fresh : trail.Fresh) : (countLedger plan v).done trail = 0 := by
  have empty : trail.tally.ofVerdict v = 0 := by
    rw [fresh.tally]
    cases v <;> rfl
  exact empty

/-! ## Words -/

/-- A turn tells what the worker has not told yet. -/
theorem Worker.Turn.told_add_unsettled {plan : Plan σ} {s s' : Shared (Heard σ)} {w w' : Worker}
    (h : Worker.Turn plan.overheard s w s' w') (sound : w.Sound plan.overheard s.visited) (word : Text) :
    ∃ lost, s'.trail.told.count word + (w'.unsettled plan.overheard .word).count word +
          Measure.total (plan.scope.yieldOf word) s.trail.taken + lost =
        s.trail.told.count word + (w.unsettled plan.overheard .word).count word +
          Measure.total (plan.scope.yieldOf word) s'.trail.taken ∧
      (plan.overheard.listener.Stays → s'.failure = none → w'.Calm → lost = 0) := by
  cases h with
  | takeUp =>
    refine ⟨0, ?_, fun _ _ _ => rfl⟩
    have all := Worker.rest_of_fresh sound .applying
    have scope : plan.overheard.scope = plan.scope := rfl
    simp only [Worker.unsettled, Trail.told, Trail.calls, Trail.heard_opened, Trail.taken_opened,
      Measure.total_cons, all, scope, Scope.yieldOf, List.count_nil]
    omega
  | @announceWord unit todo a isWord =>
    refine ⟨0, ?_, fun _ _ _ => rfl⟩
    simp only [Worker.unsettled, Worker.rest, Trail.told, Trail.calls, Trail.heard_announced,
      Trail.taken_announced, outputs_cons, isWord, if_pos]
    rfl
  | @announceLive unit todo a live =>
    refine ⟨0, ?_, fun _ _ _ => rfl⟩
    simp [Worker.unsettled, Worker.rest, Trail.told, Trail.calls, outputs_cons, live]
  | @announceNothing unit todo a isWord live =>
    refine ⟨0, ?_, fun _ _ _ => rfl⟩
    simp [Worker.unsettled, Worker.rest, Trail.told, Trail.calls, outputs_cons, isWord]
  | @tell unit todo told heard answer =>
    refine ⟨0, ?_, fun _ _ _ => rfl⟩
    obtain ⟨log, -⟩ := Listener.log_of_answer answer
    simp only [Worker.unsettled, Worker.rest, Trail.told, Trail.calls, log, List.map_cons, if_pos,
      List.count_append, List.count_cons, List.count_nil]
    omega
  | @refused unit todo told heard fault answer =>
    -- the word was told all the same, and what is left of the unit never will be
    refine ⟨(outputs .word (todo.map (plan.scope.apply unit))).count word, ?_,
      fun _ _ calm => absurd rfl (calm _)⟩
    obtain ⟨log, -⟩ := Listener.log_of_answer answer
    have scope : plan.overheard.scope = plan.scope := rfl
    simp only [Worker.unsettled, Worker.rest, scope, Trail.told, Trail.calls, log, List.map_cons,
      if_pos, List.count_append, List.count_cons, List.count_nil]
    omega
  | @desert unit todo told heard fault answer exit =>
    refine ⟨(outputs .word (todo.map (plan.scope.apply unit))).count word, ?_,
      fun stays => (stays.false_of_exit answer exit).elim⟩
    obtain ⟨log, -⟩ := Listener.log_of_answer answer
    have scope : plan.overheard.scope = plan.scope := rfl
    simp only [Worker.unsettled, Worker.rest, scope, Trail.told, Trail.calls, log, List.map_cons,
      if_pos, List.count_append, List.count_cons, List.count_nil]
    omega
  | @shutOut unit todo =>
    refine ⟨(outputs .word (todo.map (plan.scope.apply unit))).count word, ?_,
      fun _ _ calm => absurd rfl (calm _)⟩
    have scope : plan.overheard.scope = plan.scope := rfl
    simp only [Worker.unsettled, Worker.rest, scope, Shared.countDown, List.count_nil]
    omega
  | _ => exact ⟨0, rfl, fun _ _ _ => rfl⟩

/-- **Words are told once for each time that they are made.** -/
def wordLedger (plan : Plan σ) (word : Text) : Ledger plan.overheard where
  done trail := trail.told.count word
  owed w := (w.unsettled plan.overheard .word).count word
  due := plan.scope.yieldOf word
  idle w point := by
    rcases point with point | point <;> simp only [Worker.unsettled, point, List.count_nil]
  turn h sound := h.told_add_unsettled sound word

theorem done_wordLedger (plan : Plan σ) (word : Text) {trail : Trail (Heard σ)}
    (fresh : trail.Fresh) : (wordLedger plan word).done trail = 0 := by
  have empty : trail.told.count word = 0 := by
    rw [Trail.told, fresh.calls]
    rfl
  exact empty

/-- **Only words were told that some text taken up by then gives.** -/
theorem Pool.Reachable.exists_taken_of_mem_told {plan : Plan σ} {trail : Trail (Heard σ)}
    (fresh : trail.Fresh) {p : Pool (Heard σ)} (h : Reachable plan.overheard trail p) {word : Text}
    (told : word ∈ p.shared.trail.told) :
    ∃ t ∈ p.shared.trail.taken, word ∈ outputs .word (plan.scope.applications t) := by
  obtain ⟨lost, balance, -⟩ := h.balanced fresh.taken (done_wordLedger plan word fresh)
  have done : 0 < p.shared.trail.told.count word := List.count_pos_iff.2 told
  have due : 0 < Measure.total (plan.scope.yieldOf word) p.shared.trail.taken := by
    simp only [wordLedger] at balance
    omega
  obtain ⟨t, taken, gives⟩ := total_pos_iff.1 due
  exact ⟨t, taken, List.count_pos_iff.1 gives⟩

/-! ## Live texts -/

/-- What a worker has not claimed yet is claimed in its turn, or is still with it, or the worker has met
a fault. -/
theorem Worker.Turn.visited_or_unsettled {plan : Plan σ} {s s' : Shared σ} {w w' : Worker}
    (h : Worker.Turn plan s w s' w') (stays : plan.listener.Stays) (calm : w'.Calm) {t : Text}
    (ht : t ∈ w.unsettled plan .live) :
    t ∈ s'.visited ∨ t ∈ w'.unsettled plan .live := by
  cases h with
  | announceWord isWord =>
    refine .inr ?_
    simpa [Worker.unsettled, Worker.rest, outputs_cons, isWord] using ht
  | announceLive live =>
    refine .inr ?_
    simpa [Worker.unsettled, Worker.rest, outputs_cons, live] using ht
  | announceNothing isWord live =>
    refine .inr ?_
    simpa [Worker.unsettled, Worker.rest, outputs_cons, live] using ht
  | tell => exact .inr (by simpa [Worker.unsettled, Worker.rest] using ht)
  -- the text in hand was come upon before, or is now; the others stay with the worker
  | known old =>
    rcases List.mem_append.1 ht with ht | ht
    · rw [if_pos rfl, List.mem_singleton] at ht
      exact .inl (ht ▸ old)
    · exact .inr ht
  | claim =>
    rcases List.mem_append.1 ht with ht | ht
    · rw [if_pos rfl, List.mem_singleton] at ht
      exact .inl (Visited.mem_insert.2 (.inl ht))
    · exact .inr ht
  | mark =>
    rcases List.mem_append.1 ht with ht | ht
    · rw [if_pos rfl, List.mem_singleton] at ht
      exact .inl (Visited.mem_insert.2 (.inl ht))
    · exact .inr ht
  | refused => exact absurd rfl (calm _)
  | desert answer exit => exact (stays.false_of_exit answer exit).elim
  | shutOut => exact absurd rfl (calm _)
  | note => simp [Worker.unsettled] at ht
  | turnAway => simp [Worker.unsettled] at ht
  | takeUp => simp [Worker.unsettled] at ht
  | runOut => simp [Worker.unsettled, Worker.rest] at ht
  | _ => exact .inr ht

/-- A text that is taken up has all its results with its worker. -/
theorem Worker.Turn.mem_taken_or_unsettled {plan : Plan σ} {s s' : Shared σ} {w w' : Worker}
    (h : Worker.Turn plan s w s' w') (sound : w.Sound plan s.visited) {t : Text}
    (ht : t ∈ s'.trail.taken) :
    t ∈ s.trail.taken ∨
      ∀ v, w'.unsettled plan v = outputs v (plan.scope.applications t) := by
  rcases h.mem_taken ht with ht | ⟨todo, rfl, rfl⟩
  · exact .inl ht
  · refine .inr fun v => ?_
    simp only [Worker.unsettled, Worker.rest_of_fresh sound]

/-- **Live results are claimed.** -/
def liveDuty (plan : Plan σ) : Duty plan Text where
  due t := outputs .live (plan.scope.applications t)
  owed w := w.unsettled plan .live
  Done visited _ u := u ∈ visited
  stays turn _ := turn.visited_mono
  turn turn _ stays calm _ := turn.visited_or_unsettled stays calm
  takes turn sound _ ht := by
    refine (turn.mem_taken_or_unsettled sound ht).imp_right fun all u hu => ?_
    rw [all .live]
    exact hu
  leaves w point := by simp only [Worker.unsettled, point]

namespace Pool

variable {plan : Plan σ} {trail : Trail σ} {p : Pool σ}

/-- **Live results are claimed, or still with a worker.** -/
def Closed (plan : Plan σ) (p : Pool σ) : Prop :=
  ∀ t ∈ p.shared.trail.taken, ∀ u ∈ outputs .live (plan.scope.applications t),
    u ∈ p.shared.visited ∨ ∃ w ∈ p.crew, u ∈ w.unsettled plan .live

/-- While a run is calm, no live result of a text taken up goes missing. -/
theorem Reachable.closed (stays : plan.listener.Stays) (fresh : trail.taken = [])
    (h : Reachable plan trail p) (calm : p.Calm) : p.Closed plan :=
  h.met (liveDuty plan) stays fresh calm

end Pool

end SemiThue.Exploration
