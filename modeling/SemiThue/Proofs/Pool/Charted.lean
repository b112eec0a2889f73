/-
The graph that a run leaves behind.

Workers record at moments of their own choice, so the order of nodes and edges depends on who moves when.
That the graph charts a part of the exploration does not: `Pool.Charted` holds in every reachable state,
also while a worker is half-way through a record. The point to be seen is that a worker never links an
application to something that is no node yet. A worker announces, claims and marks a live text only after
it has recorded the application that gave it, so whatever was come upon is a node, and units were come upon.

To record what its rules made of a unit is a duty of its worker (`recordDuty`). When a run is completed
every duty was done, and the graph is a complete chart.
-/
import SemiThue.Proofs.Derivation.Chart
import SemiThue.Proofs.Runs

set_option autoImplicit false

namespace SemiThue.Exploration

open SemiThue.Derivation (Graph)

variable {σ : Type}

/-! ## Turns and the graph -/

/-- **A turn that leaves the graph alone**: it begins and ends outside a record. -/
structure Worker.Untouching (s : Shared σ) (w : Worker) (s' : Shared σ) (w' : Worker) : Prop where
  /-- The worker is not about to record. -/
  wants : w.wantsLock = false
  /-- It is not half-way through a record. -/
  holds : w.holdsLock = false
  /-- Nor is it so afterwards. -/
  holds' : w'.holdsLock = false
  /-- The graph stays. -/
  graph : s'.trail.graph = s.trail.graph

/-- **Only two turns touch the graph**: one in which a worker enters a result, and the one in which it
links what it has entered. -/
theorem Worker.Turn.untouching_or_record {plan : Plan σ} {s s' : Shared σ} {w w' : Worker}
    (h : Worker.Turn plan s w s' w') :
    Worker.Untouching s w s' w' ∨
      (∃ unit todo a, w = ⟨unit, todo, .recording a⟩ ∧ w' = ⟨unit, todo, .linking a⟩ ∧
        s' = { s with trail := s.trail.entered a }) ∨
      ∃ unit todo a, w = ⟨unit, todo, .linking a⟩ ∧ w' = ⟨unit, todo, .announcing a⟩ ∧
        s' = { s with trail := s.trail.linked a } := by
  cases h with
  | enter => exact .inr (.inl ⟨_, _, _, rfl, rfl, rfl⟩)
  | link => exact .inr (.inr ⟨_, _, _, rfl, rfl, rfl⟩)
  | announceWord | announceLive | announceNothing => exact .inl ⟨rfl, rfl, rfl, by simp⟩
  | note =>
    refine .inl ⟨rfl, rfl, rfl, ?_⟩
    unfold Shared.fail noteFailure
    split
    rfl
  | _ => exact .inl ⟨rfl, rfl, rfl, rfl⟩

/-- The text that a worker has in hand, or is about to have, is a node. -/
def Worker.Charted (g : Graph) (w : Worker) : Prop :=
  match w.point with
  | .linking a => a.verdict = .word ∨ a.verdict = .live → g.hasNode a.step.output = true
  | .announcing a => a.verdict = .live → g.hasNode a.step.output = true
  | .claiming t | .marking t => g.hasNode t = true
  | _ => True

theorem Worker.Charted.mono {g g' : Graph} (stays : ∀ t, g.hasNode t = true → g'.hasNode t = true)
    {w : Worker} (h : w.Charted g) : w.Charted g' := by
  unfold Charted at *
  split <;> rename_i point <;> simp only [point] at h
  · exact fun productive => stays _ (h productive)
  · exact fun live => stays _ (h live)
  · exact stays _ h
  · exact stays _ h
  · trivial

/-- As long as the graph is not touched, what is come upon is a node. -/
theorem Worker.Turn.charted_of_untouched {plan : Plan σ} {s s' : Shared σ} {w w' : Worker}
    (h : Worker.Turn plan s w s' w') {g : Graph} (untouched : Worker.Untouching s w s' w')
    (visited : ∀ t ∈ s.visited, g.hasNode t = true) (own : w.Charted g) :
    (∀ t ∈ s'.visited, g.hasNode t = true) ∧ w'.Charted g := by
  cases h with
  | enter => cases untouched.wants
  | link => cases untouched.holds
  | announceLive live => exact ⟨visited, own live⟩
  | find => exact ⟨visited, own⟩
  | claim =>
    refine ⟨fun t ht => ?_, trivial⟩
    rcases Visited.mem_insert.1 ht with rfl | ht
    · exact own
    · exact visited t ht
  | mark =>
    refine ⟨fun t ht => ?_, trivial⟩
    rcases Visited.mem_insert.1 ht with rfl | ht
    · exact own
    · exact visited t ht
  | _ => exact ⟨visited, trivial⟩

/-! ## Every reachable state is charted -/

/-- **The graph charts a part of the exploration**, and everything come upon is one of its nodes. -/
structure Pool.Charted (plan : Plan σ) (p : Pool σ) (g : Graph) : Prop where
  /-- The graph is a chart. -/
  charts : plan.scope.Charts plan.start g
  /-- What was come upon is a node. -/
  visited : ∀ t ∈ p.shared.visited, g.hasNode t = true
  /-- So are the texts that workers have in hand. -/
  crew : ∀ w ∈ p.crew, w.Charted g

namespace Pool

variable {plan : Plan σ} {trail : Trail σ} {p q : Pool σ} {g : Graph}

/-- What a worker made of its unit has a source that was come upon, and is a node. -/
theorem Charted.of_applied (charted : p.Charted plan g) (sound : p.Sound plan) {w : Worker}
    (hw : w ∈ p.crew) {a : Application} (made : a ∈ plan.scope.applications w.unit) :
    plan.scope.Reach plan.start a.step.source ∧ a ∈ plan.scope.applications a.step.source ∧
      g.hasNode a.step.source = true := by
  have unit := (sound.crew w hw).unit
  rw [Scope.source_of_mem_applications made]
  exact ⟨sound.reach _ unit, made, charted.visited _ unit⟩

theorem Charted.turn {m : Move} (sound : p.Sound plan)
    (h : ∀ g, p.shared.trail.graph = some g → p.Charted plan g) (turn : Turn plan p m q) :
    ∀ g, q.shared.trail.graph = some g → q.Charted plan g := by
  intro g' graph
  cases turn with
  | count | submit | close | finish => exact ⟨(h g' graph).charts, (h g' graph).visited, (h g' graph).crew⟩
  | begin =>
    refine ⟨(h g' graph).charts, (h g' graph).visited, fun w hw => ?_⟩
    rcases List.mem_append.1 hw with hw | hw
    · exact (h g' graph).crew w hw
    · rw [List.mem_singleton.1 hw]
      trivial
  | leave =>
    refine ⟨(h g' graph).charts, (h g' graph).visited, fun w hw => ?_⟩
    exact (h g' graph).crew w (List.mem_of_mem_eraseIdx hw)
  | @work i w w' shared at_i turn =>
    have hw := List.mem_of_getElem? at_i
    rcases turn.untouching_or_record with
      untouched | ⟨unit, todo, a, rfl, rfl, rfl⟩ | ⟨unit, todo, a, rfl, rfl, rfl⟩
    · have charted := h g' (untouched.graph ▸ graph)
      obtain ⟨visited, own⟩ := turn.charted_of_untouched untouched charted.visited (charted.crew w hw)
      refine ⟨charted.charts, visited, fun x hx => ?_⟩
      rcases (mem_set_crew_iff at_i w').1 hx with rfl | hx
      · exact own
      · exact charted.crew x (List.mem_of_mem_eraseIdx hx)
    · obtain ⟨g, before, rfl⟩ := Option.map_eq_some_iff.1 graph
      have charted := h g before
      -- the application was made of the unit, which was come upon
      obtain ⟨reach, applied, source⟩ := charted.of_applied sound hw (sound.crew _ hw).point
      refine ⟨charted.charts.enter reach applied, fun t ht => ?_, fun x hx => ?_⟩
      · exact Graph.hasNode_enter (charted.visited t ht)
      · rcases (mem_set_crew_iff at_i _).1 hx with rfl | hx
        · exact Graph.hasNode_enter_self
        · exact (charted.crew x (List.mem_of_mem_eraseIdx hx)).mono fun t => Graph.hasNode_enter
    · obtain ⟨g, before, rfl⟩ := Option.map_eq_some_iff.1 graph
      have charted := h g before
      obtain ⟨reach, applied, source⟩ := charted.of_applied sound hw (sound.crew _ hw).point
      have output : a.verdict = .word ∨ a.verdict = .live → g.hasNode a.step.output = true :=
        charted.crew _ hw
      refine ⟨charted.charts.link reach applied source output, fun t ht => ?_, fun x hx => ?_⟩
      · exact Graph.hasNode_link (charted.visited t ht)
      · rcases (mem_set_crew_iff at_i _).1 hx with rfl | hx
        · exact fun live => Graph.hasNode_link (output (.inr live))
        · exact (charted.crew x (List.mem_of_mem_eraseIdx hx)).mono fun t => Graph.hasNode_link

/-- **Every reachable state is charted**, if the graph was blank in the beginning. -/
theorem Reachable.charted (fresh : trail.taken = [])
    (blank : ∀ g, trail.graph = some g → g = .ofRoot plan.start) (h : Reachable plan trail p) :
    ∀ g, p.shared.trail.graph = some g → p.Charted plan g := by
  refine h.keeps (P := fun p => ∀ g, p.shared.trail.graph = some g → p.Charted plan g) ?_
    fun hp ih turn => Charted.turn (hp.sound fresh) ih turn
  intro g graph
  obtain rfl := blank g graph
  have charts := Scope.Charts.ofRoot plan.scope plan.start
  refine ⟨charts, fun t ht => ?_, fun w hw => ?_⟩
  · obtain rfl : t = plan.start := by simpa [Pool.initial] using ht
    exact charts.hasNode_start
  · simp [Pool.initial] at hw

/-- A run keeps a graph to its end if it had one in the beginning. -/
theorem Reachable.isSome_graph (h : Reachable plan trail p) :
    p.shared.trail.graph.isSome = trail.graph.isSome := by
  refine h.keeps (P := fun p => p.shared.trail.graph.isSome = trail.graph.isSome) rfl ?_
  intro p q m _ ih turn
  cases turn with
  | work at_i turn =>
    rcases turn.untouching_or_record with
      untouched | ⟨unit, todo, a, -, -, rfl⟩ | ⟨unit, todo, a, -, -, rfl⟩
    · rw [untouched.graph]
      exact ih
    · rw [← ih]
      exact Option.isSome_map
    · rw [← ih]
      exact Option.isSome_map
  | _ => exact ih

end Pool

/-! ## Completed runs -/

/-- The applications that a worker has not recorded yet. -/
def Worker.unrecorded (plan : Plan σ) (w : Worker) : List Application :=
  match w.point with
  | .entering | .opening | .failing _ | .leaving => []
  | .recording a | .linking a => a :: w.rest plan
  | _ => w.rest plan

/-- Whether an application has its edge, if there is a graph and it is productive. -/
def Trail.HasRecorded (trail : Trail σ) (a : Application) : Prop :=
  ∀ g, trail.graph = some g → a.verdict = .word ∨ a.verdict = .live →
    g.hasEdge a.step.source a.step.output = true

/-- A worker records an application, or has it to record still. -/
theorem Worker.Turn.recorded_or_unrecorded {plan : Plan σ} {s s' : Shared σ} {w w' : Worker}
    (h : Worker.Turn plan s w s' w') (stays : plan.listener.Stays) (calm : w'.Calm) {a : Application}
    (ha : a ∈ w.unrecorded plan) : s'.trail.HasRecorded a ∨ a ∈ w'.unrecorded plan := by
  cases h with
  | link =>
    rcases List.mem_cons.1 ha with rfl | ha
    · refine .inl fun g graph productive => ?_
      obtain ⟨g, -, rfl⟩ := Option.map_eq_some_iff.1 graph
      exact Graph.hasEdge_link_self productive
    · exact .inr ha
  | refused | shutOut => exact absurd rfl (calm _)
  | desert answer exit => exact (stays.false_of_exit answer exit).elim
  | note | turnAway | takeUp => simp [Worker.unrecorded] at ha
  | runOut => simp [Worker.unrecorded, Worker.rest] at ha
  | _ => exact .inr ha

/-- **What the rules make of a unit is recorded.** -/
def recordDuty (plan : Plan σ) : Duty plan Application where
  due := plan.scope.applications
  owed := Worker.unrecorded plan
  Done _ trail := trail.HasRecorded
  stays turn a done := by
    rcases turn.untouching_or_record with
      untouched | ⟨unit, todo, b, -, -, rfl⟩ | ⟨unit, todo, b, -, -, rfl⟩
    · unfold Trail.HasRecorded
      rw [untouched.graph]
      exact done
    · intro g graph productive
      obtain ⟨g, before, rfl⟩ := Option.map_eq_some_iff.1 graph
      exact Graph.hasEdge_enter.2 (done g before productive)
    · intro g graph productive
      obtain ⟨g, before, rfl⟩ := Option.map_eq_some_iff.1 graph
      exact Graph.hasEdge_link (done g before productive)
  turn turn _ stays calm _ := turn.recorded_or_unrecorded stays calm
  takes turn sound t ht := by
    rcases turn.mem_taken ht with ht | ⟨todo, rfl, rfl⟩
    · exact .inl ht
    · refine .inr fun a ha => ?_
      simp only [Worker.unrecorded, Worker.rest_of_fresh sound]
      exact ha
  leaves w point := by simp only [Worker.unrecorded, point]

/-- **The graph of a run that ends calm is a complete chart.** -/
theorem Pool.Reachable.chartsAll {plan : Plan σ} {trail : Trail σ} {p : Pool σ} {g : Graph}
    (stays : plan.listener.Stays) (fresh : trail.taken = [])
    (blank : ∀ g, trail.graph = some g → g = .ofRoot plan.start)
    (h : Reachable plan trail p) (finished : p.caller = .finished) (calm : p.Calm)
    (graph : p.shared.trail.graph = some g) : plan.scope.ChartsAll plan.start g where
  toCharts := (h.charted fresh blank g graph).charts
  complete a productive := by
    have taken := (h.mem_taken_iff_reach stays fresh finished calm _).2 productive.reach
    exact h.done_of_finished (recordDuty plan) stays fresh finished calm taken productive.applied g graph
      productive.verdict

namespace Explorer

variable {e : Explorer} {listener : Listener σ} {start : Text} {journal : Journal} {heard : σ}

/-- The graph with which a run begins is blank. -/
theorem blank_openTrail (e : Explorer) (start : Text) (journal : Journal) (heard : σ) :
    ∀ g, (e.openTrail start journal heard).graph = some g → g = .ofRoot start := by
  intro g graph
  obtain ⟨_, -, rfl⟩ := Option.map_eq_some_iff.1 graph
  rfl

/-- A run on a pool that is recorded has a graph in every state. -/
theorem exists_graph {crew : Crew} {p : Pool σ}
    (reachable : Pool.Reachable (e.plan crew listener start) (e.openTrail start journal heard) p)
    (recorded : e.recording.isSome = true) : ∃ g, p.shared.trail.graph = some g := by
  refine Option.isSome_iff_exists.1 ?_
  rw [reachable.isSome_graph, openTrail, Option.isSome_map]
  exact recorded

/-- **A completed run that is recorded leaves a complete chart**, whatever the strategy and whoever
moved. -/
theorem Ends.exists_chart {ended : Ended (Heard σ)}
    (run : e.Ends listener.overheard start journal ([], heard) ended) (completed : ended.Completed)
    (recorded : e.recording.isSome = true) :
    ∃ g, ended.explorer.recording = some (.graph g) ∧ e.scope.ChartsAll start g := by
  obtain ⟨crew, p, same⟩ := run.exists_obliging completed
  obtain ⟨g, graph⟩ := exists_graph same.reachable recorded
  refine ⟨g, by rw [same.recording, graph]; rfl, ?_⟩
  exact same.reachable.chartsAll listener.assents_obliging.stays.overheard rfl
    (e.blank_openTrail start journal ([], heard)) same.finished (same.calm completed.reports) graph

end Explorer

end SemiThue.Exploration
