/-
Graphs that account for themselves.

A chart says where nodes and edges come from. The graph of a run has more to it, because of the order in
which things are recorded. What is recorded next starts from a node, so every node is joined to the start by
edges. The rules are applied to a text one after the other, so the rule that an edge bears is the first one
that makes the second text of the first, whichever worker came to record it, and however many of them were
on that text. `Scope.Draws` is a chart with these two properties, and `Draws.record` says what has to be
known of the next record for them to stay.

`Scope.Accounts` puts down what follows for someone who has the graph and the grammar but knows nothing of
runs: what a node's verdict says about its text, what an edge says about its ends, and that a derivation can
be had of every node and of nothing else.
-/
import SemiThue.Proofs.Derivation.Shortest

set_option autoImplicit false

namespace SemiThue

/-! ## Recording a productive application -/

namespace Derivation.Graph

variable {g : Graph} {s e : Step} {verdict : Verdict}

/-- A productive application adds its edge at most. -/
theorem edges_record (h : verdict = .word ∨ verdict = .live) :
    (g.record s verdict).edges = if g.hasEdge s.source s.output then g.edges else s :: g.edges := by
  rw [record_of_productive h]
  by_cases known : g.hasEdge s.source s.output = true
  · rw [if_pos known, addEdge_of_hasEdge (hasEdge_addNode.2 known), edges_addNode]
  · rw [if_neg known, edges_addEdge_of_not_hasEdge, edges_addNode]
    rw [← Bool.not_eq_true, hasEdge_addNode]
    exact known

theorem edges_subset_record (h : verdict = .word ∨ verdict = .live) :
    g.edges ⊆ (g.record s verdict).edges := by
  rw [edges_record h]
  split
  · exact List.Subset.refl _
  · exact List.subset_cons_self _ _

/-- A productive application adds its output at most. -/
theorem text_of_mem_nodes_record (h : verdict = .word ∨ verdict = .live)
    (source : g.hasNode s.source = true) {n : Node} (hn : n ∈ (g.record s verdict).nodes) :
    n.text = s.output ∨ g.hasNode n.text = true := by
  rw [record_of_productive h, nodes_addEdge (hasNode_addNode.2 (.inr source)) hasNode_addNode_self] at hn
  exact hasNode_addNode.1 (hasNode_of_mem hn)

end Derivation.Graph

namespace Derivation

theorem Path.mono {edges edges' steps : List Step} {s t : Text} (sub : edges ⊆ edges')
    (h : Path edges s steps t) : Path edges' s steps t :=
  ⟨h.1, fun e he => sub (h.2 e he)⟩

end Derivation

namespace Exploration

open SemiThue.Derivation (Graph Node Step Path Shortest)

variable {scope : Scope} {start : Text} {g : Graph} {a : Application}

/-! ## Graphs that are drawn in order -/

/-- The first rule that makes one text of another. -/
def Scope.firstRule? (scope : Scope) (source output : Text) : Option Rule :=
  scope.grammar.rules.find? fun rule => rule.rewrite source = output

/-- **A chart that was drawn in order.** -/
structure Scope.Draws (scope : Scope) (start : Text) (g : Graph) : Prop
    extends scope.Charts start g where
  /-- There is one edge at most from one text to another. -/
  nodup_edges : (g.edges.map fun e => (e.source, e.output)).Nodup
  /-- Every node is joined to the start. -/
  joined : ∀ n ∈ g.nodes, ∃ steps, Path g.edges start steps n.text
  /-- Every edge bears the first rule that it could bear. -/
  first : ∀ e ∈ g.edges, scope.firstRule? e.source e.output = some e.rule

namespace Scope.Draws

theorem ofRoot (scope : Scope) (start : Text) : scope.Draws start (.ofRoot start) where
  toCharts := Charts.ofRoot scope start
  nodup_edges := by simp
  joined n hn := by
    rw [Graph.nodes_ofRoot, List.mem_singleton] at hn
    rw [hn]
    exact ⟨[], rfl, by simp⟩
  first e he := by simp at he

/-- **The next record keeps a graph drawn in order**, if its source is a node, and if no earlier rule makes
the same of that source unless there is an edge already. -/
theorem record (h : scope.Draws start g) (reach : scope.Reach start a.step.source)
    (applied : a ∈ scope.applications a.step.source) (source : g.hasNode a.step.source = true)
    (first : a.verdict = .word ∨ a.verdict = .live →
      g.hasEdge a.step.source a.step.output = false →
        scope.firstRule? a.step.source a.step.output = some a.step.rule) :
    scope.Draws start (g.record a.step a.verdict) := by
  refine ⟨h.toCharts.record reach applied source, ?_, ?_, ?_⟩
  all_goals by_cases productive : a.verdict = .word ∨ a.verdict = .live
  · rw [Graph.edges_record productive]
    split
    · exact h.nodup_edges
    · rename_i new
      rw [List.map_cons, List.nodup_cons]
      refine ⟨fun mem => new ?_, h.nodup_edges⟩
      obtain ⟨e, he, same⟩ := List.mem_map.1 mem
      exact Graph.hasEdge_iff.2 ⟨e, he, Prod.mk.inj same⟩
  · rw [(Graph.record_of_not_productive productive).2.2]
    exact h.nodup_edges
  · intro n hn
    have sub := Graph.edges_subset_record (g := g) (s := a.step) productive
    rcases Graph.text_of_mem_nodes_record productive source hn with output | old
    · -- from the start to the source, and on by the edge that there is now
      obtain ⟨m, hm, same⟩ := Graph.hasNode_iff.1 source
      obtain ⟨steps, path⟩ := h.joined m hm
      have linked : (g.record a.step a.verdict).hasEdge a.step.source a.step.output = true :=
        Graph.hasEdge_link_self productive
      obtain ⟨e, he, leaves, arrives⟩ := Graph.hasEdge_iff.1 linked
      refine ⟨steps ++ [e], (path.mono sub).append ⟨?_, by simpa using he⟩⟩
      rw [same, output]
      exact ⟨leaves, arrives⟩
    · obtain ⟨m, hm, same⟩ := Graph.hasNode_iff.1 old
      obtain ⟨steps, path⟩ := h.joined m hm
      exact ⟨steps, same ▸ path.mono sub⟩
  · obtain ⟨-, nodes, edges⟩ := Graph.record_of_not_productive (g := g) (s := a.step) productive
    rw [nodes, edges]
    exact h.joined
  · rw [Graph.edges_record productive]
    split
    · exact h.first
    · rename_i new
      intro e he
      rcases List.mem_cons.1 he with rfl | he
      · exact first productive (Bool.not_eq_true _ ▸ new)
      · exact h.first e he
  · rw [(Graph.record_of_not_productive productive).2.2]
    exact h.first

/-- **What was entered is linked**: if the graph was drawn in order before the entry, it is so again. That the
source is a node can be seen after the entry as well, for an application does not give its own source. -/
theorem link_enter (h : scope.Draws start g) (reach : scope.Reach start a.step.source)
    (applied : a ∈ scope.applications a.step.source)
    (source : (g.enter a.step a.verdict).hasNode a.step.source = true)
    (first : a.verdict = .word ∨ a.verdict = .live →
      (g.enter a.step a.verdict).hasEdge a.step.source a.step.output = false →
        scope.firstRule? a.step.source a.step.output = some a.step.rule) :
    scope.Draws start ((g.enter a.step a.verdict).link a.step a.verdict) := by
  refine h.record reach applied ?_ fun productive new => first productive ?_
  · rcases Graph.hasNode_or_eq_of_enter source with before | ⟨productive, same⟩
    · exact before
    · have changed := Scope.Productive.changed ⟨reach, applied, productive⟩
      exact absurd same.symm changed
  · rw [← Bool.not_eq_true, Graph.hasEdge_enter, new]
    exact Bool.false_ne_true

end Scope.Draws

/-! ## What a graph says without the run -/

/-- **The verdict that a text earns** by what it is: a word is made of terminals only and within both
bounds, and a live text can be gone on from. -/
def Scope.Earns (scope : Scope) (t : Text) : Verdict → Prop
  | .word => (∀ c ∈ t, [c] ∈ scope.grammar.terminals) ∧ t.length ≤ scope.grammar.bound ∧
      (t.length : Int) ≤ scope.grammar.bound + scope.margin
  | .live => scope.Continues t
  | .dropped | .unchanged => False

/-- What a productive application gave earned its verdict. -/
theorem Scope.Productive.earns (h : scope.Productive start a) :
    scope.Earns a.step.output a.verdict := by
  obtain ⟨rule, -, applied⟩ := h.exists_rule
  rcases h.verdict with verdict | verdict
  · rw [applied, verdict_eq_word_iff] at verdict
    rw [applied, verdict_eq_word_iff.2 verdict]
    exact ⟨verdict.2.2.2, verdict.2.1, verdict.2.2.1⟩
  · rw [applied, verdict_eq_live_iff] at verdict
    rw [applied, verdict_eq_live_iff.2 verdict]
    exact (givesLive_iff.1 verdict).2

/-- What can be gone on from earns no other verdict. -/
theorem Scope.Earns.eq_live {t : Text} {v : Verdict} (h : scope.Earns t v)
    (continues : scope.Continues t) : v = .live := by
  cases v with
  | live => rfl
  | word =>
    obtain ⟨-, c, mem, rewritable⟩ := continues
    exact absurd (h.1 c mem) rewritable
  | dropped => exact h.elim
  | unchanged => exact h.elim

/-- **A graph that accounts for itself.** -/
structure Scope.Accounts (scope : Scope) (start : Text) (g : Graph) : Prop where
  /-- Derivations begin at the start. -/
  root : g.root = some start
  /-- The start is a node, as a live text. -/
  start_mem : ⟨start, some .live⟩ ∈ g.nodes
  /-- No text is a node twice. -/
  nodup : (g.nodes.map Node.text).Nodup
  /-- Any other node has a verdict, and it is the one that its text earns. -/
  verdict : ∀ n ∈ g.nodes, n.text ≠ start → ∃ v, n.verdict = some v ∧ scope.Earns n.text v
  /-- Every node is joined to the start. -/
  joined : ∀ n ∈ g.nodes, ∃ steps, Path g.edges start steps n.text
  /-- There is one edge at most from one text to another. -/
  nodup_edges : (g.edges.map fun e => (e.source, e.output)).Nodup
  /-- An edge leads to another text. -/
  changes : ∀ e ∈ g.edges, e.output ≠ e.source
  /-- It comes from a live node, and it leads to a node. -/
  ends : ∀ e ∈ g.edges, ⟨e.source, some .live⟩ ∈ g.nodes ∧ ∃ n ∈ g.nodes, n.text = e.output
  /-- It bears the first rule that makes the second text of the first. -/
  first : ∀ e ∈ g.edges, scope.firstRule? e.source e.output = some e.rule
  /-- There is a derivation of every node, and whatever else is asked for was never derived. -/
  derivation : ∀ t,
    ((∃ n ∈ g.nodes, n.text = t) ∧
      ∃ steps, g.derivation t = .ok steps ∧ Shortest g.edges start steps t) ∨
    ((∀ n ∈ g.nodes, n.text ≠ t) ∧ g.derivation t = .error (.neverDerived t start))

namespace Scope.Draws

/-- The node of a text that is to be taken up is a live one. -/
theorem live_mem (h : scope.Draws start g) {t : Text} (reach : scope.Reach start t)
    (node : g.hasNode t = true) : ⟨t, some .live⟩ ∈ g.nodes := by
  by_cases same : t = start
  · rw [same]
    exact h.start_mem
  · obtain ⟨⟨text, verdict⟩, hn, rfl⟩ := Graph.hasNode_iff.1 node
    obtain ⟨a, productive, output, rfl⟩ := h.nodes _ hn same
    have continues := reach.eq_or_continues.resolve_left same
    have earns := productive.earns
    rw [output] at earns
    rw [earns.eq_live continues] at hn
    exact hn

/-- A node that is joined to the start has a derivation. -/
theorem exists_derivation (h : scope.Draws start g) {t : Text} (node : g.hasNode t = true) :
    ∃ steps, g.derivation t = .ok steps ∧ Shortest g.edges start steps t := by
  obtain ⟨n, hn, rfl⟩ := Graph.hasNode_iff.1 node
  obtain ⟨path, isPath⟩ := h.joined n hn
  exact h.exists_shortest node isPath

/-- **A graph that was drawn in order accounts for itself.** -/
theorem accounts (h : scope.Draws start g) : scope.Accounts start g where
  root := h.root
  start_mem := h.start_mem
  nodup := h.nodup
  verdict n hn other := by
    obtain ⟨a, productive, output, verdict⟩ := h.nodes n hn other
    exact ⟨a.verdict, verdict, output ▸ productive.earns⟩
  joined := h.joined
  nodup_edges := h.nodup_edges
  changes e he := by
    obtain ⟨-, -, a, productive, rfl⟩ := h.edges e he
    exact productive.changed
  ends e he := by
    obtain ⟨source, output, a, productive, rfl⟩ := h.edges e he
    exact ⟨h.live_mem productive.reach source, Graph.hasNode_iff.1 output⟩
  first := h.first
  derivation t := by
    cases node : g.hasNode t with
    | true => exact .inl ⟨Graph.hasNode_iff.1 node, h.exists_derivation node⟩
    | false =>
      refine .inr ⟨fun n hn same => ?_, ?_⟩
      · rw [← same, Graph.hasNode_of_mem hn] at node
        cases node
      · simp [Graph.derivation, h.root, node]

end Scope.Draws

end Exploration

end SemiThue
