/-
What is on its way while a run on a pool goes on.

The numbers of a run are kept in several places. A worker counts a result in one move, records it in the
next, and tells a word or claims a live text some moves later, while other workers do the same with theirs.
So no two of these numbers agree at every moment. What agrees is each of them together with what the workers
have under way.

A `Transit` is of this kind: results with some verdict are counted when a rule is applied, and arrive
elsewhere later. That no result gets lost in between needs no calm: a worker that meets a fault has nothing
under way, for only the call with which a word arrives can be refused. Two of them are followed here, that of
words from the tally to the listener, and that of skipped results from the tally to the graph.

Texts to be taken up do get lost when a failure is noted, as in `Pool.Kept`. Their number, wherever they
are, is one more than the number of claims (`Pool.population_eq`), and claims are counted along the
schedule: a claim is a move, and the state does not remember it.
-/
import SemiThue.Proofs.Pool.Agreement

set_option autoImplicit false

namespace SemiThue.Exploration

open SemiThue.Derivation (Graph)

variable {σ : Type}

/-! ## Transits -/

/-- **A transit**: results are counted in one place and arrive in another. -/
structure Transit (plan : Plan σ) where
  /-- How many results were counted. -/
  counted : Trail σ → Nat
  /-- How many arrived, if that is kept anywhere. -/
  arrived : Trail σ → Option Nat
  /-- How many a worker has under way. -/
  underway : Worker → Nat
  /-- Nothing is under way with a worker that comes, and nothing with one that goes. -/
  idle : ∀ w : Worker, w.point = .entering ∨ w.point = .leaving → underway w = 0
  /-- In a turn of a worker what is counted is under way, and what is under way no more has arrived. -/
  turn : ∀ {s s' : Shared σ} {w w' : Worker}, Worker.Turn plan s w s' w' →
    ∀ n', arrived s'.trail = some n' → ∃ n, arrived s.trail = some n ∧
      n' + underway w' + counted s.trail = n + underway w + counted s'.trail

/-- The transit is even: what was counted has arrived or is under way. -/
def Transit.Even {plan : Plan σ} (transit : Transit plan) (p : Pool σ) : Prop :=
  ∀ n, transit.arrived p.shared.trail = some n →
    n + Measure.total transit.underway p.crew = transit.counted p.shared.trail

namespace Pool

variable {plan : Plan σ} {trail : Trail σ} {p q : Pool σ} {transit : Transit plan}

theorem Turn.even {m : Move} (turn : Turn plan p m q) (h : transit.Even p) : transit.Even q := by
  intro n' arrived
  cases turn with
  | count => exact h n' arrived
  | submit => exact h n' arrived
  | close => exact h n' arrived
  | finish => exact h n' arrived
  | @begin i unit queue taken free =>
    have comes : transit.underway ⟨unit, plan.scope.grammar.rules, .entering⟩ = 0 :=
      transit.idle _ (.inl rfl)
    rw [Measure.total_append, Measure.total_cons, Measure.total_nil, comes]
    exact h n' arrived
  | @work i w w' shared at_i turn =>
    obtain ⟨n, before, balance⟩ := transit.turn turn n' arrived
    have even := h n before
    have crew := Measure.total_set transit.underway w' at_i
    simp only
    omega
  | @leave i w at_i point =>
    have goes : transit.underway w = 0 := transit.idle w (.inr point)
    have crew := Measure.total_eraseIdx transit.underway at_i
    have even := h n' arrived
    simp only [Shared.countDown]
    omega

/-- **Transits are even in every reachable state**, calm or not, if they were in the beginning. -/
theorem Reachable.even (blank : ∀ n, transit.arrived trail = some n → n = transit.counted trail)
    (h : Reachable plan trail p) : transit.Even p :=
  h.keeps (fun n arrived => by simpa [Pool.initial] using blank n arrived) fun _ even turn =>
    turn.even even

/-- **When the caller has its answer**, what was counted has arrived. -/
theorem Reachable.arrived_eq_counted (transit : Transit plan)
    (blank : ∀ n, transit.arrived trail = some n → n = transit.counted trail)
    (h : Reachable plan trail p) (finished : p.caller = .finished) {n : Nat}
    (arrived : transit.arrived p.shared.trail = some n) : n = transit.counted p.shared.trail := by
  obtain ⟨-, crew⟩ := h.joined.empty (by simp [finished])
  have even := h.even blank n arrived
  rwa [crew, Measure.total_nil, Nat.add_zero] at even

end Pool

/-! ## Words -/

/-- One for a worker that has counted a word and not told it yet. -/
def Worker.untold (w : Worker) : Nat :=
  match w.point with
  | .recording a | .linking a | .announcing a => if a.verdict = .word then 1 else 0
  | .telling _ => 1
  | _ => 0

theorem Tally.words_count (tally : Tally) (v : Verdict) :
    (tally.count v).words = tally.words + if v = .word then 1 else 0 := by
  cases v <;> rfl

/-- **In a turn no counted word gets lost**: it is under way, or the listener is told. -/
theorem Worker.Turn.untold {plan : Plan σ} {s s' : Shared (Heard σ)} {w w' : Worker}
    (turn : Worker.Turn plan.overheard s w s' w') :
    s'.trail.calls.length + w'.untold + s.trail.tally.words =
      s.trail.calls.length + w.untold + s'.trail.tally.words := by
  cases turn with
  | apply =>
    simp only [Worker.untold, Trail.calls, Trail.heard_counted, Trail.tally_counted, Tally.words_count]
    omega
  | announceWord word =>
    simp only [Worker.untold, Trail.calls, Trail.heard_announced, Trail.tally_announced, word, if_pos]
  | announceLive live =>
    simp [Worker.untold, Trail.calls, live]
  | announceNothing word =>
    simp only [Worker.untold, Trail.calls, Trail.heard_announced, Trail.tally_announced, word, if_false]
  | tell answer | refused answer | desert answer =>
    obtain ⟨log, -⟩ := Listener.log_of_answer answer
    simp only [Worker.untold, Trail.calls, log, List.length_cons]
  | note =>
    unfold Shared.fail noteFailure
    split
    rfl
  | _ => rfl

/-- **Words on their way** from the tally to the listener. -/
def wordTransit (plan : Plan σ) : Transit plan.overheard where
  counted trail := trail.tally.words
  arrived trail := some trail.calls.length
  underway := Worker.untold
  idle w point := by rcases point with point | point <;> simp only [Worker.untold, point]
  turn turn _ arrived := ⟨_, rfl, Option.some.inj arrived ▸ turn.untold⟩

/-! ## Skipped results -/

section Skipped

variable (g : Graph) (step : Derivation.Step) (v : Verdict)

theorem skipped_addNode (t : Text) (verdict : Option Verdict) :
    (g.addNode t verdict).skipped v = g.skipped v := by
  unfold Graph.addNode
  split
  · rfl
  · cases v <;> rfl

theorem skipped_addEdge : (g.addEdge step).skipped v = g.skipped v := by
  unfold Graph.addEdge
  split
  · rfl
  · -- an edge is added after its nodes, and neither is a skipped result
    rw [← skipped_addNode g v step.source none,
      ← skipped_addNode (g.addNode step.source none) v step.output none]
    cases v <;> rfl

theorem skipped_enter (result : Verdict) : (g.enter step result).skipped v = g.skipped v := by
  cases result with
  | word | live => exact skipped_addNode _ _ _ _
  | unchanged | dropped => rfl

/-- **A result is skipped where it is neither a word nor live**, and then the graph only counts it. -/
theorem skipped_link (result : Verdict) {v : Verdict} (no_word : v ≠ .word) (not_live : v ≠ .live) :
    (g.link step result).skipped v = g.skipped v + if result = v then 1 else 0 := by
  cases result with
  | word => rw [if_neg no_word.symm, Nat.add_zero]; exact skipped_addEdge _ _ _
  | live => rw [if_neg not_live.symm, Nat.add_zero]; exact skipped_addEdge _ _ _
  | unchanged => cases v <;> rfl
  | dropped => cases v <;> rfl

end Skipped

/-- One for a worker that has counted a result with this verdict and not recorded it yet. -/
def Worker.unfiled (v : Verdict) (w : Worker) : Nat :=
  match w.point with
  | .recording a | .linking a => if a.verdict = v then 1 else 0
  | _ => 0

/-- **In a turn no counted result gets lost**: it is under way, or the graph counts it. -/
theorem Worker.Turn.unfiled {plan : Plan σ} {s s' : Shared σ} {w w' : Worker} {v : Verdict}
    (no_word : v ≠ .word) (not_live : v ≠ .live) (turn : Worker.Turn plan s w s' w') (n' : Nat)
    (arrived : (s'.trail.graph.map fun g => g.skipped v) = some n') :
    ∃ n, (s.trail.graph.map fun g => g.skipped v) = some n ∧
      n' + w'.unfiled v + s.trail.tally.ofVerdict v = n + w.unfiled v + s'.trail.tally.ofVerdict v := by
  obtain ⟨g', graph', rfl⟩ := Option.map_eq_some_iff.1 arrived
  cases turn with
  | apply =>
    refine ⟨_, Option.map_eq_some_iff.2 ⟨g', graph', rfl⟩, ?_⟩
    simp only [Worker.unfiled, Trail.tally_counted, Tally.ofVerdict_count]
    omega
  | @enter unit todo a =>
    obtain ⟨g, graph, rfl⟩ := Option.map_eq_some_iff.1 graph'
    refine ⟨_, Option.map_eq_some_iff.2 ⟨g, graph, rfl⟩, ?_⟩
    simp only [Worker.unfiled, Trail.tally_entered, skipped_enter]
  | @link unit todo a =>
    obtain ⟨g, graph, rfl⟩ := Option.map_eq_some_iff.1 graph'
    refine ⟨_, Option.map_eq_some_iff.2 ⟨g, graph, rfl⟩, ?_⟩
    simp only [Worker.unfiled, Trail.tally_linked, skipped_link g a.step a.verdict no_word not_live]
    omega
  | announceWord | announceLive | announceNothing =>
    rw [Trail.graph_announced] at graph'
    refine ⟨_, Option.map_eq_some_iff.2 ⟨g', graph', rfl⟩, ?_⟩
    simp only [Worker.unfiled, Trail.tally_announced]
  | note =>
    refine ⟨_, Option.map_eq_some_iff.2 ⟨g', ?_, rfl⟩, ?_⟩
    · rw [← graph']
      unfold Shared.fail noteFailure
      split
      rfl
    · unfold Shared.fail noteFailure
      split
      rfl
  | _ => exact ⟨_, Option.map_eq_some_iff.2 ⟨g', graph', rfl⟩, rfl⟩

/-- **Skipped results on their way** from the tally to the graph, if there is one. -/
def skipTransit (plan : Plan σ) {v : Verdict} (no_word : v ≠ .word) (not_live : v ≠ .live) :
    Transit plan where
  counted trail := trail.tally.ofVerdict v
  arrived trail := trail.graph.map fun g => g.skipped v
  underway := Worker.unfiled v
  idle w point := by rcases point with point | point <;> simp only [Worker.unfiled, point]
  turn turn := turn.unfiled no_word not_live

/-! ## Claims -/

/-- One for a worker that claims a text in its next move, and zero otherwise. -/
def Worker.claims (plan : Plan σ) (s : Shared σ) (w : Worker) : Nat :=
  match w.point with
  | .claiming t => if plan.atomic = true ∧ t ∉ s.visited then 1 else 0
  | .marking _ => 1
  | _ => 0

namespace Pool

/-- One if a text is claimed in a move. -/
def claimsOfMove (plan : Plan σ) (p : Pool σ) : Move → Nat
  | .work i => p.crew[i]?.elim 0 (Worker.claims plan p.shared)
  | _ => 0

/-- **How many texts are claimed along a schedule.** -/
def claims (plan : Plan σ) (p : Pool σ) : List Move → Nat
  | [] => 0
  | m :: ms => p.claimsOfMove plan m + (p.move? plan m).elim 0 fun q => q.claims plan ms

theorem claims_cons_of_move? {plan : Plan σ} {p q : Pool σ} {m : Move} (h : p.move? plan m = some q)
    (ms : List Move) : p.claims plan (m :: ms) = p.claimsOfMove plan m + q.claims plan ms := by
  rw [claims, h, Option.elim_some]

end Pool

/-- One for a worker with a text to be taken up in its custody, which is its unit before it is taken up, and
then a text that it has claimed. -/
def Worker.custody (w : Worker) : Nat :=
  match w.point with
  | .entering | .opening | .checking _ | .counting _ | .submitting _ => 1
  | _ => 0

/-- One for a caller that has the start in its custody. -/
def Caller.custody : Caller → Nat
  | .counting | .submitting => 1
  | _ => 0

/-- **How many texts there are**, wherever they are: in somebody's custody, in the queue, or taken up. -/
def Pool.population (p : Pool σ) : Nat :=
  p.caller.custody + p.shared.queue.toList.length + Measure.total Worker.custody p.crew +
    p.shared.trail.expanded

/-- **One worker adds a text by a claim**, and loses one only to a failure. -/
theorem Worker.Turn.population {plan : Plan σ} {s s' : Shared σ} {w w' : Worker}
    (h : Worker.Turn plan s w s' w') :
    ∃ lost, s'.queue.toList.length + w'.custody + s'.trail.expanded + lost =
        s.queue.toList.length + w.custody + s.trail.expanded + w.claims plan s ∧
      (s'.failure = none → w'.Calm → lost = 0) := by
  cases h with
  | turnAway noted =>
    -- the unit is given up, but then a failure was noted
    refine ⟨1, ?_, fun calm => ?_⟩
    · simp only [Worker.custody, Worker.claims]
      omega
    · rw [calm] at noted
      cases noted
  | giveUp noted =>
    refine ⟨1, ?_, fun calm => ?_⟩
    · simp only [Worker.custody, Worker.claims]
      omega
    · rw [calm] at noted
      cases noted
  | shutOut =>
    refine ⟨1, ?_, fun _ calm => absurd rfl (calm _)⟩
    simp only [Worker.custody, Worker.claims, Shared.countDown]
    omega
  | takeUp =>
    refine ⟨0, ?_, fun _ _ => rfl⟩
    simp only [Worker.custody, Worker.claims, Trail.expanded, Trail.taken_opened, List.length_cons]
    omega
  | known old =>
    refine ⟨0, ?_, fun _ _ => rfl⟩
    simp only [Worker.custody, Worker.claims, if_neg fun h : plan.atomic = true ∧ _ ∉ s.visited => h.2 old]
  | claim atomic new =>
    refine ⟨0, ?_, fun _ _ => rfl⟩
    simp only [Worker.custody, Worker.claims, if_pos (And.intro atomic new)]
    omega
  | find relaxed =>
    refine ⟨0, ?_, fun _ _ => rfl⟩
    simp [Worker.custody, Worker.claims, relaxed]
  | mark =>
    refine ⟨0, ?_, fun _ _ => rfl⟩
    simp only [Worker.custody, Worker.claims]
    omega
  | submit =>
    refine ⟨0, ?_, fun _ _ => rfl⟩
    simp only [Worker.custody, Worker.claims, Queue.toList_push, List.length_append, List.length_singleton]
  | announceWord | announceLive | announceNothing =>
    exact ⟨0, by simp [Worker.custody, Worker.claims, Trail.expanded], fun _ _ => rfl⟩
  | note =>
    refine ⟨0, ?_, fun _ _ => rfl⟩
    unfold Shared.fail noteFailure
    split
    rfl
  | _ => exact ⟨0, rfl, fun _ _ => rfl⟩

namespace Pool

variable {plan : Plan σ} {trail : Trail σ} {p q : Pool σ}

/-- There are as many texts as were claimed, and one more, apart from losses, which need a failure. -/
def Peopled (p : Pool σ) (claims : Nat) : Prop :=
  ∃ lost, p.population + lost = 1 + claims ∧ (p.Calm → lost = 0)

/-- **Every move that claims a text adds one.** -/
theorem Turn.peopled {m : Move} {n : Nat} (turn : Turn plan p m q) (h : p.Peopled n) :
    q.Peopled (n + p.claimsOfMove plan m) := by
  obtain ⟨lost, population, calm⟩ := h
  have calm : q.Calm → lost = 0 := fun hq => calm (turn.calm_of_calm hq)
  unfold Pool.population at population
  cases turn with
  | count caller =>
    refine ⟨lost, ?_, calm⟩
    simp only [caller, Caller.custody] at population
    exact population
  | submit caller =>
    refine ⟨lost, ?_, calm⟩
    simp only [caller, Caller.custody] at population
    simp only [Pool.population, Caller.custody, Queue.toList_push, List.length_append,
      List.length_singleton, claimsOfMove]
    omega
  | close caller =>
    refine ⟨lost, ?_, calm⟩
    simp only [caller, Caller.custody] at population
    exact population
  | finish caller =>
    refine ⟨lost, ?_, calm⟩
    simp only [caller, Caller.custody] at population
    exact population
  | @begin i unit queue taken free =>
    -- the unit goes from the queue to a worker
    refine ⟨lost, ?_, calm⟩
    obtain ⟨hi, hq⟩ := Queue.take?_eq_some taken
    have length := List.length_eraseIdx_of_lt (List.getElem?_eq_some_iff.1 hi).1
    have some_unit := (List.getElem?_eq_some_iff.1 hi).1
    rw [← hq] at length
    simp only [Pool.population, Measure.total_append, Measure.total_cons, Measure.total_nil,
      Worker.custody, claimsOfMove]
    omega
  | @work i w w' shared at_i turn =>
    obtain ⟨lost', own, calm'⟩ := turn.population
    refine ⟨lost + lost', ?_, fun hq => ?_⟩
    · have crew := Measure.total_set Worker.custody w' at_i
      simp only [Pool.population, claimsOfMove, at_i, Option.elim_some]
      omega
    · obtain ⟨⟨failure, hw⟩, -⟩ := (calm_iff_of_set at_i w').1 hq
      rw [calm hq, calm' failure hw]
  | @leave i w at_i point =>
    refine ⟨lost, ?_, calm⟩
    have crew := Measure.total_eraseIdx Worker.custody at_i
    have own : w.custody = 0 := by simp only [Worker.custody, point]
    have claims : w.claims plan p.shared = 0 := by simp only [Worker.claims, point]
    simp only [Pool.population, Shared.countDown, claimsOfMove, at_i, Option.elim_some]
    omega

/-- Along a schedule texts are added as they are claimed. -/
theorem Peopled.follow {n : Nat} (h : p.Peopled n) {ms : List Move}
    (follows : p.follow? plan ms = some q) : q.Peopled (n + p.claims plan ms) := by
  induction ms generalizing p n with
  | nil =>
    rw [follow?_nil, Option.some.injEq] at follows
    exact follows ▸ h
  | cons m ms ih =>
    obtain ⟨x, hx, follows⟩ := Option.bind_eq_some_iff.1 follows
    have next := ih ((turn_of_move? hx).peopled h) follows
    rwa [Nat.add_assoc, ← claims_cons_of_move? hx] at next

/-- **How many texts there are along a run**: one more than were claimed, as long as nothing goes wrong. -/
theorem population_eq (fresh : trail.taken = []) {ms : List Move}
    (follows : (initial plan.start trail).follow? plan ms = some p) (calm : p.Calm) :
    p.population = 1 + (initial plan.start trail).claims plan ms := by
  have beginning : (initial plan.start trail).Peopled 0 := by
    refine ⟨0, ?_, fun _ => rfl⟩
    simp only [Pool.population, initial, Caller.custody, Queue.toList_empty, List.length_nil,
      Measure.total_nil, Trail.expanded, fresh]
  obtain ⟨lost, population, none_lost⟩ := beginning.follow follows
  rw [none_lost calm, Nat.zero_add] at population
  exact population

/-- **When the caller has its answer**, all of them were taken up. -/
theorem expanded_eq (fresh : trail.taken = []) {ms : List Move}
    (follows : (initial plan.start trail).follow? plan ms = some p) (finished : p.caller = .finished)
    (calm : p.Calm) :
    p.shared.trail.expanded = 1 + (initial plan.start trail).claims plan ms := by
  obtain ⟨queue, crew⟩ := (Reachable.initial.follow follows).joined.empty (by simp [finished])
  rw [← population_eq fresh follows calm, Pool.population, finished, queue, crew, Measure.total_nil]
  simp [Caller.custody]

end Pool

end SemiThue.Exploration
