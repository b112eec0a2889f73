/-
What a completed run records is determined by the scope and the start.

Who records first decides which node is the older one and which rule an edge gets. When everything is
recorded, nothing of that is left but the order. A node has the verdict that any productive application
would have given it, and an edge bears the first rule that makes the one text of the other, so nodes and
edges can be told without the run: `ChartsAll.mem_nodes_iff`, `Draws.mem_edges_iff`. Nodes and edges do not
repeat, so what two completed runs leave is the same up to order.

Texts to be taken up are those of the live nodes, and the texts that are taken up in a completed run.
-/
import SemiThue.Proofs.Pool.Drawn
import SemiThue.Proofs.Pool.Relaxed

set_option autoImplicit false

namespace SemiThue.Exploration

open SemiThue.Derivation (Graph Node Step)

variable {scope : Scope} {start : Text} {g g' : Graph}

/-! ## Nodes -/

namespace Scope.ChartsAll

/-- The live nodes are the texts to be taken up. -/
theorem live_mem_iff (h : scope.ChartsAll start g) {t : Text} :
    ⟨t, some .live⟩ ∈ g.nodes ↔ scope.Reach start t := by
  rw [h.mem_nodes_iff]
  constructor
  · rintro (same | ⟨-, a, productive, same⟩)
    · obtain rfl := congrArg Node.text same
      exact .start
    · obtain ⟨rfl, verdict⟩ := Node.mk.inj same
      refine productive.reach.of_mem_outputs (mem_outputs.2 ⟨a, productive.applied, ?_, rfl⟩)
      exact (Option.some.inj verdict).symm
  · intro reach
    by_cases same : t = start
    · exact .inl (by rw [same])
    · cases reach with
      | start => exact absurd rfl same
      | step reach mem live =>
        have productive := reach.productive_of_continues mem live.1 (givesLive_iff.1 live).2
        refine .inr ⟨same, _, productive, ?_⟩
        rw [verdict_eq_live_iff.2 live, output_apply]

theorem nodes_perm (h : scope.ChartsAll start g) (h' : scope.ChartsAll start g') :
    g.nodes.Perm g'.nodes := by
  rw [List.perm_ext_iff_of_nodup (h.nodup.of_map _) (h'.nodup.of_map _)]
  intro n
  rw [h.mem_nodes_iff, h'.mem_nodes_iff]

/-- The intermediates are what is to be taken up, sorted and each once. -/
theorem intermediates_eq (h : scope.ChartsAll start g) {texts : List Text}
    (reach : ∀ t, t ∈ texts ↔ scope.Reach start t) :
    g.intermediates = Text.withoutRepeats (Text.sort texts) := by
  refine Text.sort_eq_withoutRepeats_sort (h.nodup_texts_of_verdict .live) fun t => ?_
  rw [reach, ← h.live_mem_iff, List.mem_map]
  constructor
  · rintro ⟨⟨text, verdict⟩, mem, rfl⟩
    obtain ⟨mem, live⟩ := List.mem_filter.1 mem
    rwa [← beq_iff_eq.1 live]
  · intro mem
    exact ⟨_, List.mem_filter.2 ⟨mem, beq_self_eq_true _⟩, rfl⟩

end Scope.ChartsAll

/-! ## Edges -/

namespace Scope.ChartsAll

/-- **There is an edge exactly where a productive application leads.** -/
theorem hasEdge_iff (h : scope.ChartsAll start g) {source output : Text} :
    g.hasEdge source output = true ↔ scope.Reach start source ∧
      ∃ rule ∈ scope.grammar.rules, rule.rewrite source = output ∧
        ((scope.apply source rule).verdict = .word ∨ (scope.apply source rule).verdict = .live) := by
  constructor
  · intro edge
    obtain ⟨e, he, rfl, rfl⟩ := Graph.hasEdge_iff.1 edge
    obtain ⟨-, -, a, productive, rfl⟩ := h.edges e he
    obtain ⟨rule, mem, applied⟩ := productive.exists_rule
    refine ⟨productive.reach, rule, mem, ?_, ?_⟩
    · rw [applied]
      rfl
    · rw [← applied]
      exact productive.verdict
  · rintro ⟨reach, rule, mem, rfl, verdict⟩
    exact h.complete _ ⟨reach, mem_applications.2 ⟨rule, mem, rfl⟩, verdict⟩

end Scope.ChartsAll

namespace Scope.Draws

/-- An edge of a graph drawn in order is determined by its ends. -/
theorem mem_edges_iff (h : scope.Draws start g) {s : Step} :
    s ∈ g.edges ↔ g.hasEdge s.source s.output = true ∧
      scope.firstRule? s.source s.output = some s.rule := by
  constructor
  · intro hs
    exact ⟨Graph.hasEdge_iff.2 ⟨s, hs, rfl, rfl⟩, h.first s hs⟩
  · rintro ⟨edge, first⟩
    obtain ⟨⟨source, rule, output⟩, he, rfl, rfl⟩ := Graph.hasEdge_iff.1 edge
    rw [h.first _ he] at first
    obtain rfl := Option.some.inj first
    exact he

theorem edges_perm (h : scope.Draws start g) (h' : scope.Draws start g') (all : scope.ChartsAll start g)
    (all' : scope.ChartsAll start g') : g.edges.Perm g'.edges := by
  rw [List.perm_ext_iff_of_nodup (h.nodup_edges.of_map _) (h'.nodup_edges.of_map _)]
  intro s
  rw [h.mem_edges_iff, h'.mem_edges_iff, all.hasEdge_iff, all'.hasEdge_iff]

end Scope.Draws

/-! ## Completed runs -/

/-- A completed run that is recorded leaves a complete graph drawn in order, and has taken up what is to be
taken up. -/
theorem Explorer.Leaves.exists_drawn {σ : Type} {e : Explorer} {listener : Listener σ} {start : Text}
    {journal : Journal} {heard : σ} {trail : Trail (Heard σ)} {ended : Ended (Heard σ)}
    (run : e.Leaves listener.overheard start journal ([], heard) trail ended) (completed : ended.Completed)
    (recorded : e.recording.isSome = true) :
    ∃ g, ended.explorer.recording = some (.graph g) ∧ e.scope.Draws start g ∧
      e.scope.ChartsAll start g ∧ ∀ t, t ∈ trail.taken ↔ e.scope.Reach start t := by
  obtain ⟨crew, p, reachable, finished, calm, silent⟩ := run.exists_obliging completed
  obtain ⟨taken, -, same, -⟩ := Trail.silent_eq_iff.1 silent
  obtain ⟨g, graph⟩ := exists_graph reachable recorded
  have stays := listener.assents_obliging.stays.overheard
  have blank := e.blank_openTrail start journal (([], heard) : Heard σ)
  have draws := reachable.draws rfl blank (reachable.isLocked_of_finished finished) graph
  refine ⟨g, ?_, draws, reachable.chartsAll stays rfl blank finished calm graph, ?_⟩
  · rw [run.recording, ← same, graph]
    rfl
  · rw [← taken]
    exact reachable.mem_taken_iff_reach stays rfl finished calm

/-- **The graph of a completed run does not depend on the run.** Any two completed runs from one start, in
one scope, leave the same nodes with the same verdicts and the same edges with the same rules, whatever the
strategies, the listeners, and whoever moved. The intermediates are the texts that were taken up, the start
among them, and there is an edge exactly from a text taken up to what some rule makes of it, if that is
judged a word or live. -/
theorem graphs_of_completed_runs_agree {σ τ : Type} {e e' : Explorer} {listener : Listener σ}
    {listener' : Listener τ} {start : Text} {journal journal' : Journal} {heard : σ} {heard' : τ}
    {trail : Trail (Heard σ)} {trail' : Trail (Heard τ)} {ended : Ended (Heard σ)} {ended' : Ended (Heard τ)}
    (run : e.Leaves listener.overheard start journal ([], heard) trail ended) (completed : ended.Completed)
    (recorded : e.recording.isSome = true)
    (run' : e'.Leaves listener'.overheard start journal' ([], heard') trail' ended')
    (completed' : ended'.Completed) (recorded' : e'.recording.isSome = true) (scope : e'.scope = e.scope) :
    ∃ g g', ended.explorer.recording = some (.graph g) ∧ ended'.explorer.recording = some (.graph g') ∧
      g.nodes.Perm g'.nodes ∧ g.edges.Perm g'.edges ∧
      start ∈ trail.taken ∧ g.intermediates = Text.withoutRepeats (Text.sort trail.taken) ∧
      ∀ source output, g.hasEdge source output = true ↔ source ∈ trail.taken ∧
        ∃ rule ∈ e.scope.grammar.rules, rule.rewrite source = output ∧
          ((e.scope.apply source rule).verdict = .word ∨ (e.scope.apply source rule).verdict = .live) := by
  obtain ⟨g, recording, draws, all, taken⟩ := run.exists_drawn completed recorded
  obtain ⟨g', recording', draws', all', -⟩ := run'.exists_drawn completed' recorded'
  rw [scope] at draws' all'
  refine ⟨g, g', recording, recording', all.nodes_perm all', draws.edges_perm draws' all all',
    (taken start).2 .start, all.intermediates_eq taken, fun source output => ?_⟩
  rw [taken, all.hasEdge_iff]

/-- Two workers on `diamond`, who both take up `C`, leave what the sequential strategy leaves. -/
theorem graphs_of_completed_runs_agree_diamond :
    let e : Explorer := { Pool.diamond with recording := some .empty }
    let e' : Explorer := { e with strategy := .sequential }
    let p := Pool.after (e.plan { workers := some 2, atomic := false } Listener.taking.overheard ['S'])
      (e.openTrail ['S'] {} ([], ())) Pool.diamondMoves
    let o := Sequential.run e'.scope Listener.taking.overheard ['S'] (e'.openTrail ['S'] {} ([], ()))
    p.shared.trail.taken = [['C'], ['C'], ['B'], ['A'], ['S']] ∧
      ∃ g g', (e.afterPool ['S'] p).explorer.recording = some (.graph g) ∧
        (e'.afterSequential ['S'] o).explorer.recording = some (.graph g') ∧
        g.nodes.Perm g'.nodes ∧ g.edges.Perm g'.edges ∧ g.edges.length = 5 := by
  intro e e' p o
  have reachable : Pool.Reachable (e.plan _ _ ['S']) (e.openTrail ['S'] {} ([], ())) p :=
    Pool.reachable_after _ _ _
  have finished : p.caller = .finished := by decide +kernel
  have taken : p.shared.trail.taken = [['C'], ['C'], ['B'], ['A'], ['S']] := by decide +kernel
  have edges : p.shared.trail.graph.map (fun g => g.edges.length) = some 5 := by decide +kernel
  clear_value p
  have completed : (e.afterPool ['S'] p).Completed :=
    Explorer.completed_afterPool Listener.assents_taking reachable finished
  have completed' : (e'.afterSequential ['S'] o).Completed :=
    e'.run_of_sequential ['S'] rfl Listener.taking.overheard {} ([], ()) ▸
      Explorer.completed_run_of_sequential rfl Listener.assents_taking _ _ _
  obtain ⟨g, g', recording, recording', nodes, same, -⟩ := graphs_of_completed_runs_agree
    (.concurrent rfl reachable finished) completed rfl (.sequential (e := e') rfl (rfl : _ = o)) completed'
    rfl rfl
  refine ⟨taken, g, g', recording, recording', nodes, same, ?_⟩
  rw [e.recording_afterPool] at recording
  obtain ⟨g₁, graph, same⟩ := Option.map_eq_some_iff.1 recording
  cases same
  rw [graph] at edges
  exact Option.some.inj edges

end SemiThue.Exploration
