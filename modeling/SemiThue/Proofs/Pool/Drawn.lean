/-
The graph at every moment of a run.

That the graph is a chart at every moment is known (`Reachable.charted`). Here it is shown to be drawn in
order, and so to account for itself, whenever nobody is half-way through a record: while the run is going on,
and after it has come to whatever end. Within a record the graph need not account for itself, since what was
entered is a node to which nothing leads yet. The lock keeps others from recording then, so it is one entry
only by which the graph is ahead of one that was drawn in order (`Pool.Drawn`).

What has to be seen is that an edge bears the first rule that it could bear, though several workers may be
on one text in the relaxed mode, and record in any order. The point is that each of them goes through the
rules in their order and records what it made before it applies the next rule (`Worker.InOrder`). So when a
worker is about to link what a rule made, and an earlier rule makes the same, then it has recorded that
already, and the edge is there. A worker that met a failure leaves rules out at the end, never in between.
-/
import SemiThue.Proofs.Derivation.Drawn
import SemiThue.Proofs.Moments
import SemiThue.Proofs.Pool.Failure
import SemiThue.Proofs.Pool.Lock

set_option autoImplicit false

namespace SemiThue.Exploration

open SemiThue.Derivation (Graph Path Recording)

variable {σ : Type}

/-! ## The first rule -/

/-- The verdict depends on what a rule makes of a text, not on the rule. -/
theorem Scope.verdict_apply_congr {scope : Scope} {text : Text} {rule rule' : Rule}
    (same : rule.rewrite text = rule'.rewrite text) :
    (scope.apply text rule).verdict = (scope.apply text rule').verdict := by
  simp only [Scope.apply, same]

/-- A rule is the first one to make what it makes, if no rule before it does. -/
theorem Scope.firstRule?_of_unlike {scope : Scope} {text : Text} {before after : List Rule} {rule : Rule}
    (split : before ++ rule :: after = scope.grammar.rules)
    (unlike : ∀ r ∈ before, r.rewrite text ≠ rule.rewrite text) :
    scope.firstRule? text (rule.rewrite text) = some rule := by
  rw [Scope.firstRule?, ← split, List.find?_append, List.find?_eq_none.2 (by simpa using unlike)]
  simp

/-! ## Workers record in order -/

/-- **A worker has recorded what it is past**: what the rules made that come before the ones left to it,
and before the one whose application it is recording, or about to record. -/
def Worker.InOrder (plan : Plan σ) (trail : Trail σ) (w : Worker) : Prop :=
  ∃ before, (∀ rule ∈ before, trail.HasRecorded (plan.scope.apply w.unit rule)) ∧
    match w.point with
    | .recording a | .linking a => ∃ rule, before ++ rule :: w.todo = plan.scope.grammar.rules ∧
        a = plan.scope.apply w.unit rule
    | _ => before ++ w.todo = plan.scope.grammar.rules

section Turn

variable {plan : Plan σ} {s s' : Shared σ} {w w' : Worker}

theorem Worker.InOrder.of_linking {trail : Trail σ} {unit : Text} {todo : List Rule} {a : Application}
    (h : Worker.InOrder plan trail ⟨unit, todo, .linking a⟩) :
    ∃ before rule, a = plan.scope.apply unit rule ∧ before ++ rule :: todo = plan.scope.grammar.rules ∧
      ∀ r ∈ before, trail.HasRecorded (plan.scope.apply unit r) := by
  obtain ⟨before, recorded, rule, split, made⟩ := h
  exact ⟨before, rule, made, split, recorded⟩

/-- **What is linked as a new edge bears the first rule**: if an earlier one made the same, it was recorded
by this worker, and the edge would be there. -/
theorem Worker.InOrder.firstRule? {trail : Trail σ} {unit : Text} {todo : List Rule} {a : Application}
    {g : Graph} (h : Worker.InOrder plan trail ⟨unit, todo, .linking a⟩) (graph : trail.graph = some g)
    (productive : a.verdict = .word ∨ a.verdict = .live)
    (new : g.hasEdge a.step.source a.step.output = false) :
    plan.scope.firstRule? a.step.source a.step.output = some a.step.rule := by
  obtain ⟨before, rule, rfl, split, recorded⟩ := h.of_linking
  refine Scope.firstRule?_of_unlike split fun r mem (same : r.rewrite unit = rule.rewrite unit) => ?_
  have edge : g.hasEdge unit (r.rewrite unit) = true :=
    recorded r mem g graph (Scope.verdict_apply_congr same ▸ productive)
  rw [same] at edge
  exact absurd (edge.symm.trans new) (by simp)

/-- What is recorded stays so, whoever moves. -/
theorem Worker.Turn.hasRecorded (h : Worker.Turn plan s w s' w') {a : Application}
    (recorded : s.trail.HasRecorded a) : s'.trail.HasRecorded a :=
  (recordDuty plan).stays h a recorded

theorem Worker.InOrder.mono {trail trail' : Trail σ}
    (stays : ∀ a, trail.HasRecorded a → trail'.HasRecorded a) (h : w.InOrder plan trail) :
    w.InOrder plan trail' := by
  obtain ⟨before, recorded, split⟩ := h
  exact ⟨before, fun rule mem => stays _ (recorded rule mem), split⟩

/-- **A worker that goes on stays in order.** -/
theorem Worker.Turn.inOrder (h : Worker.Turn plan s w s' w') (own : w.InOrder plan s.trail) :
    w'.InOrder plan s'.trail := by
  have own := own.mono fun a => h.hasRecorded
  cases h with
  | @apply unit rule todo =>
    obtain ⟨before, recorded, split⟩ := own
    exact ⟨before, recorded, rule, split, rfl⟩
  | enter => exact own
  | @link unit todo a =>
    obtain ⟨before, rule, rfl, split, recorded⟩ := own.of_linking
    refine ⟨before ++ [rule], fun r mem => ?_, by simpa using split⟩
    rcases List.mem_append.1 mem with mem | mem
    · exact recorded r mem
    · -- the rule that it is past now
      rw [List.mem_singleton.1 mem]
      intro g graph productive
      obtain ⟨g, -, rfl⟩ := Option.map_eq_some_iff.1 graph
      exact Graph.hasEdge_link_self productive
  | _ => exact own

end Turn

namespace Pool

variable {plan : Plan σ} {trail : Trail σ} {p q : Pool σ}

/-- **Every worker is in order**, whoever moves. -/
theorem Reachable.inOrder (h : Reachable plan trail p) : ∀ w ∈ p.crew, w.InOrder plan p.shared.trail := by
  refine h.keeps (P := fun p => ∀ w ∈ p.crew, w.InOrder plan p.shared.trail) (by simp [Pool.initial]) ?_
  intro p q m _ ih turn
  cases turn with
  | count | submit | close | finish => exact ih
  | begin =>
    intro w hw
    rcases List.mem_append.1 hw with hw | hw
    · exact ih w hw
    · rw [List.mem_singleton.1 hw]
      exact ⟨[], fun _ mem => absurd mem List.not_mem_nil, rfl⟩
  | @work i w w' shared at_i turn =>
    intro x hx
    rcases (mem_set_crew_iff at_i w').1 hx with rfl | hx
    · exact turn.inOrder (ih w (List.mem_of_getElem? at_i))
    · exact (ih x (List.mem_of_mem_eraseIdx hx)).mono fun a => turn.hasRecorded
  | leave => exact fun w hw => ih w (List.mem_of_mem_eraseIdx hw)

/-- **The graph is drawn in order, but for one entry at most.** -/
structure Drawn (plan : Plan σ) (p : Pool σ) (g : Graph) : Prop where
  /-- It is drawn in order while nobody is half-way through a record. -/
  free : (∀ w ∈ p.crew, w.holdsLock = false) → plan.scope.Draws plan.start g
  /-- Otherwise it was so before the entry of the worker that is. -/
  held : ∀ w ∈ p.crew, ∀ a, w.point = .linking a →
    ∃ g₀, plan.scope.Draws plan.start g₀ ∧ g = g₀.enter a.step a.verdict

/-- What is half-done stays as it is while workers come, leave, and do other things. -/
theorem Drawn.of_holders {g : Graph} (h : p.Drawn plan g)
    (same : ∀ w, w.holdsLock = true → (w ∈ q.crew ↔ w ∈ p.crew)) : q.Drawn plan g where
  free nobody := by
    refine h.free fun w hw => ?_
    by_contra holds
    rw [Bool.not_eq_false] at holds
    exact absurd (nobody w ((same w holds).2 hw)) (by simp [holds])
  held w hw a point := h.held w ((same w (by simp [Worker.holdsLock, point])).1 hw) a point

/-- While nobody is half-way through a record, a graph that is drawn in order is all that is asked for. -/
theorem Drawn.of_free {g : Graph} (draws : plan.scope.Draws plan.start g)
    (nobody : ∀ w ∈ p.crew, w.holdsLock = false) : p.Drawn plan g where
  free _ := draws
  held w hw a point := by
    have holds := nobody w hw
    simp [Worker.holdsLock, point] at holds

/-- So it is if a worker has just entered a result into such a graph, and no other one is. -/
theorem Drawn.of_entry {g : Graph} {w : Worker} {a : Application} (draws : plan.scope.Draws plan.start g)
    (mem : w ∈ p.crew) (point : w.point = .linking a)
    (others : ∀ x ∈ p.crew, x = w ∨ x.holdsLock = false) : p.Drawn plan (g.enter a.step a.verdict) where
  free nobody := by
    have holds := nobody w mem
    simp [Worker.holdsLock, point] at holds
  held x hx b at_b := by
    rcases others x hx with rfl | free
    · obtain rfl : a = b := Point.linking.inj (point.symm.trans at_b)
      exact ⟨g, draws, rfl⟩
    · simp [Worker.holdsLock, at_b] at free

/-- **Every reachable graph is drawn in order but for one entry**, if it was blank in the beginning. -/
theorem Reachable.drawn (fresh : trail.taken = [])
    (blank : ∀ g, trail.graph = some g → g = .ofRoot plan.start) (h : Reachable plan trail p) :
    ∀ g, p.shared.trail.graph = some g → p.Drawn plan g := by
  refine h.keeps (P := fun p => ∀ g, p.shared.trail.graph = some g → p.Drawn plan g) ?_ ?_
  · intro g graph
    obtain rfl := blank g graph
    exact .of_free (.ofRoot _ _) (by simp [Pool.initial])
  · intro p q m hp ih turn g' graph
    cases turn with
    | count | submit | close | finish => exact (ih g' graph).of_holders fun _ _ => Iff.rfl
    | begin =>
      refine (ih g' graph).of_holders fun w holds => ?_
      rw [List.mem_append, List.mem_singleton, or_iff_left]
      rintro rfl
      cases holds
    | @leave i w at_i point =>
      refine (ih g' graph).of_holders fun x holds => ?_
      rw [mem_crew_iff at_i, or_iff_right]
      rintro rfl
      simp [Worker.holdsLock, point] at holds
    | @work i w w' shared at_i turn free =>
      have mem := List.mem_of_getElem? at_i
      rcases turn.untouching_or_record with
        untouched | ⟨unit, todo, a, rfl, rfl, rfl⟩ | ⟨unit, todo, a, rfl, rfl, rfl⟩
      · refine (ih g' (untouched.graph ▸ graph)).of_holders fun x holds => ?_
        rw [mem_set_crew_iff at_i, mem_crew_iff at_i, or_iff_right, or_iff_right]
        · rintro rfl
          simp [untouched.holds] at holds
        · rintro rfl
          simp [untouched.holds'] at holds
      · -- the lock was free, and the worker holds it now
        obtain ⟨g, old, rfl⟩ := Option.map_eq_some_iff.1 graph
        have kept : p.shared.trail.graph.isSome = true := by rw [old]; rfl
        have nobody := (isLocked_eq_false_iff kept).1 (free rfl)
        refine .of_entry ((ih g old).free nobody) ((mem_set_crew_iff at_i _).2 (.inl rfl)) rfl fun x hx => ?_
        exact ((mem_set_crew_iff at_i _).1 hx).imp_right fun hx => nobody x (List.mem_of_mem_eraseIdx hx)
      · -- the worker links what it has entered, and nobody else is half-way through a record
        obtain ⟨g, old, rfl⟩ := Option.map_eq_some_iff.1 graph
        obtain ⟨g₀, draws, rfl⟩ := (ih g old).held _ mem a rfl
        have sound := hp.sound fresh
        obtain ⟨reach, applied, source⟩ :=
          (hp.charted fresh blank _ old).of_applied sound mem (sound.crew _ mem).point
        have kept : p.shared.trail.graph.isSome = true := by rw [old]; rfl
        have others := hp.holds_alone (hp.isSome_graph ▸ kept) at_i rfl
        refine .of_free ?_ fun x hx => ?_
        · obtain rfl : a.step.source = unit := Scope.source_of_mem_applications (sound.crew _ mem).point
          exact draws.link_enter reach applied source
            fun productive new => (hp.inOrder _ mem).firstRule? old productive new
        · rcases (mem_set_crew_iff at_i _).1 hx with rfl | hx
          · rfl
          · exact others x hx

/-- **Whenever somebody holds it**, the graph was drawn in order before that worker entered a result. -/
theorem Reachable.exists_enter (fresh : trail.taken = [])
    (blank : ∀ g, trail.graph = some g → g = .ofRoot plan.start) (h : Reachable plan trail p)
    (locked : p.isLocked = true) {g : Graph} (graph : p.shared.trail.graph = some g) :
    ∃ g₀ t, plan.scope.Draws plan.start g₀ ∧ plan.scope.Reach plan.start t ∧
      ∃ a ∈ plan.scope.applications t, g = g₀.enter a.step a.verdict := by
  rw [isLocked, graph, Option.isSome_some, Bool.true_and, List.any_eq_true] at locked
  obtain ⟨⟨unit, todo, point⟩, mem, holds⟩ := locked
  have sound := h.sound fresh
  unfold Worker.holdsLock at holds
  split at holds
  · rename_i a at_point
    obtain ⟨g₀, draws, rfl⟩ := (h.drawn fresh blank g graph).held _ mem a at_point
    have own := (sound.crew _ mem).point
    rw [at_point] at own
    exact ⟨g₀, unit, draws, sound.reach _ (sound.crew _ mem).unit, a, own, rfl⟩
  · cases holds

/-- **Whenever the lock is free, the graph is drawn in order.** -/
theorem Reachable.draws (fresh : trail.taken = [])
    (blank : ∀ g, trail.graph = some g → g = .ofRoot plan.start) (h : Reachable plan trail p)
    (unlocked : p.isLocked = false) {g : Graph} (graph : p.shared.trail.graph = some g) :
    plan.scope.Draws plan.start g :=
  (h.drawn fresh blank g graph).free ((isLocked_eq_false_iff (by rw [graph]; rfl)).1 unlocked)

end Pool

/-! ## Every moment, and every end -/

namespace Explorer

variable {e : Explorer} {listener : Listener σ} {start : Text} {journal : Journal} {heard : σ}
  {trail : Trail σ} {ended : Ended σ}

/-- A recorded run has a graph at every moment, and outside records it is drawn in order. -/
theorem PassesUnlocked.exists_draws (passes : e.PassesUnlocked listener start journal heard trail)
    (recorded : e.recording.isSome = true) :
    ∃ g, trail.graph = some g ∧ e.scope.Draws start g := by
  obtain ⟨crew, p, reachable, unlocked, silent⟩ := passes.exists_pool
  obtain ⟨-, -, same, -⟩ := Trail.silent_eq_iff.1 silent
  obtain ⟨g, graph⟩ := exists_graph reachable recorded
  exact ⟨g, same ▸ graph,
    reachable.draws rfl (e.blank_openTrail start journal heard) unlocked graph⟩

/-- Within a record it was so before the result was entered that is being recorded. -/
theorem Passes.exists_draws_or_enter (passes : e.Passes listener start journal heard trail)
    (recorded : e.recording.isSome = true) :
    ∃ g, trail.graph = some g ∧ (e.scope.Draws start g ∨
      ∃ g₀ t, e.scope.Draws start g₀ ∧ e.scope.Reach start t ∧
        ∃ a ∈ e.scope.applications t, g = g₀.enter a.step a.verdict) := by
  obtain ⟨crew, p, reachable, silent⟩ := passes.exists_pool
  obtain ⟨-, -, same, -⟩ := Trail.silent_eq_iff.1 silent
  obtain ⟨g, graph⟩ := exists_graph reachable recorded
  have blank := e.blank_openTrail start journal heard
  refine ⟨g, same ▸ graph, ?_⟩
  cases locked : p.isLocked with
  | false => exact .inl (reachable.draws rfl blank locked graph)
  | true => exact .inr (reachable.exists_enter rfl blank locked graph)

/-- **The graph accounts for itself at every moment of a recorded run outside records**, and after its end,
whatever the strategy, whoever moves, and whether the run is completed or the listener refuses a word: nodes
have the verdicts that their texts earn, each is joined to the start, edges come from live nodes and bear
the first rule that makes the one text of the other, and a derivation is found of every node and of nothing
else. Within a record it is such a graph into which one more result was entered, that of a rule for a text to
be taken up, and not linked yet. -/
theorem accounts_at_every_moment (recorded : e.recording.isSome = true) :
    (∀ trail, e.PassesUnlocked listener start journal heard trail →
      ∃ g, trail.graph = some g ∧ e.scope.Accounts start g) ∧
    (∀ ended, e.Ends listener start journal heard ended →
      ∃ g, ended.explorer.recording = some (.graph g) ∧ e.scope.Accounts start g) ∧
    ∀ trail, e.Passes listener start journal heard trail →
      ∃ g, trail.graph = some g ∧ (e.scope.Accounts start g ∨
        ∃ g₀ t, e.scope.Accounts start g₀ ∧ e.scope.Reach start t ∧
          ∃ a ∈ e.scope.applications t, g = g₀.enter a.step a.verdict) := by
  refine ⟨fun trail passes => ?_, fun ended ends => ?_, fun trail passes => ?_⟩
  · obtain ⟨g, graph, draws⟩ := passes.exists_draws recorded
    exact ⟨g, graph, draws.accounts⟩
  · obtain ⟨trail, leaves⟩ := ends.exists_leaves
    obtain ⟨g, graph, draws⟩ := leaves.passesUnlocked.exists_draws recorded
    refine ⟨g, ?_, draws.accounts⟩
    rw [leaves.recording, graph]
    rfl
  · obtain ⟨g, graph, draws | ⟨g₀, t, draws, reach, a, made, rfl⟩⟩ := passes.exists_draws_or_enter recorded
    · exact ⟨g, graph, .inl draws.accounts⟩
    · exact ⟨_, graph, .inr ⟨g₀, t, draws.accounts, reach, a, made, rfl⟩⟩

/-- Two workers on `Scope.converging`, and a listener that refuses: the graph accounts for itself when one of
them has noted the failure and the other one is about to come in, and when the run has failed. -/
theorem accounts_at_every_moment_converging :
    let e : Explorer := { Pool.converging with recording := some .empty }
    let plan := e.plan { workers := some 2 } (Listener.refusing (.broken "full")).overheard ['S']
    let trail := e.openTrail ['S'] {} ([], ())
    let noted := Pool.after plan trail Pool.convergingRefusal
    let p := Pool.after plan trail
      (Pool.convergingRefusal ++ [.work 0, .work 0, .work 0, .caller, .caller])
    (noted.crew.map Worker.point = [.leaving, .entering] ∧
      ∃ g, noted.shared.trail.graph = some g ∧ e.scope.Accounts ['S'] g ∧
        g.nodes = [⟨['a'], some .word⟩, ⟨['T'], some .live⟩, ⟨['S'], some .live⟩]) ∧
    (p.caller = .finished ∧ p.shared.failure = some (.wrapped ['S'] (.broken "full")) ∧
      ∃ g, (e.afterPool ['S'] p).explorer.recording = some (.graph g) ∧ e.scope.Accounts ['S'] g) := by
  intro e plan trail noted p
  have midway : Pool.Reachable plan trail noted := Pool.reachable_after _ _ _
  have reachable : Pool.Reachable plan trail p := Pool.reachable_after _ _ _
  have crew : noted.crew.map Worker.point = [.leaving, .entering] := by decide +kernel
  have nodes : noted.shared.trail.graph.map Graph.nodes =
      some [⟨['a'], some .word⟩, ⟨['T'], some .live⟩, ⟨['S'], some .live⟩] := by decide +kernel
  have unlocked : noted.isLocked = false := by decide +kernel
  have finished : p.caller = .finished := by decide +kernel
  have failure : p.shared.failure = some (.wrapped ['S'] (.broken "full")) := by decide +kernel
  clear_value noted p
  have passes : e.PassesUnlocked (Listener.refusing (.broken "full")).overheard ['S'] {} ([], ())
      noted.shared.trail := .concurrent rfl midway unlocked
  have ends : e.Ends (Listener.refusing (.broken "full")).overheard ['S'] {} ([], ())
      (e.afterPool ['S'] p) := .concurrent rfl reachable finished
  obtain ⟨g, graph, accounts⟩ := (accounts_at_every_moment rfl).1 _ passes
  rw [graph] at nodes
  exact ⟨⟨crew, g, graph, accounts, Option.some.inj nodes⟩, finished, failure,
    (accounts_at_every_moment rfl).2.1 _ ends⟩

/-- Two workers on `Scope.branching`: one of them has recorded the word `a` and is about to tell it, and the
other one has entered the word `b` and not linked it. -/
def branchingRecord : List Move :=
  let goesOn (i n : Nat) : List Move := List.replicate n (.work i)
  [[.caller, .caller, .begin 0], goesOn 0 10, [.begin 0], goesOn 0 4, goesOn 1 12].flatten

/-- **Whoever looks then** finds `b` among the words, and no derivation of it; the one about to tell `a` may
do so when it calls the listener. And if a pool refuses to start from something that is no text, the
recording stays as it was, and if it is empty, a derivation of a text that is not in it is not answered with
that, but with that nothing was recorded. -/
theorem not_accounts_within_record :
    let e : Explorer :=
      { scope := .branching, strategy := .concurrent { workers := some 2 }, recording := some .empty }
    let plan := e.plan { workers := some 2 } Listener.taking.overheard ['S']
    let trail := e.openTrail ['S'] {} ([], ())
    let p := Pool.after plan trail branchingRecord
    let refused := e.runSupplied Listener.taking (.foreign (.integer 5)) {} ()
    (e.Passes Listener.taking.overheard ['S'] {} ([], ()) p.shared.trail ∧
      p.crew.map Worker.point =
        [.telling ['a'], .linking ⟨⟨['T'], ⟨['T'], ['b'], by decide⟩, ['b']⟩, .word⟩] ∧
      ∃ g, p.shared.trail.graph = some g ∧ ⟨['b'], some .word⟩ ∈ g.nodes ∧
        (¬∃ steps, Path g.edges ['S'] steps ['b']) ∧
        g.derivation ['b'] = .error (.noPath ['S'] ['b']) ∧ ¬e.scope.Accounts ['S'] g) ∧
    refused.result = .error (textless (.integer 5)) ∧ refused.explorer.recording = some .empty ∧
      ∀ t, Recording.derivation .empty t = .error .nothingRecorded := by
  intro e plan trail p refused
  have reachable : Pool.Reachable plan trail p := Pool.reachable_after _ _ _
  have crew : p.crew.map Worker.point =
      [.telling ['a'], .linking ⟨⟨['T'], ⟨['T'], ['b'], by decide⟩, ['b']⟩, .word⟩] := by decide +kernel
  obtain ⟨g, graph, node, edges, derivation⟩ : ∃ g ∈ p.shared.trail.graph,
      ⟨['b'], some .word⟩ ∈ g.nodes ∧ (∀ step ∈ g.edges, step.output ≠ ['b']) ∧
      g.derivation ['b'] = .error (.noPath ['S'] ['b']) := by
    decide +kernel
  clear_value p
  have no_path : ¬∃ steps, Path g.edges ['S'] steps ['b'] := by
    rintro ⟨steps, path⟩
    obtain ⟨step, mem, arrives⟩ := path.exists_edge (by decide)
    exact edges step mem arrives
  refine ⟨⟨.concurrent rfl reachable, crew, g, graph, node, no_path, derivation, fun accounts => ?_⟩, ?_⟩
  · exact no_path (accounts.joined _ node)
  · exact ⟨rfl, rfl, fun _ => rfl⟩

end Explorer

end SemiThue.Exploration
