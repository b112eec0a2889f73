/-
Graphs that chart an exploration.

A run records the applications that gave a word or a live text; call them productive. At any moment its
graph charts a part of what the run can make: each edge is the step of a productive application, and each
node but the root is what some productive application gave, with the verdict of that application. No
further record of a productive application disturbs this, whatever the order, provided that its source is
a node by then; nor does the first half of a record (`Charts.enter`). A graph is complete when every
productive application has its edge. All complete charts of one scope from one start have the same texts for
nodes, and the same pairs of texts for edges.

The root is the exception among the nodes: it is put there as a live text before anything is applied, and
keeps that verdict even if it is made again as a word.
-/
import SemiThue.Derivation.Basic
import SemiThue.Proofs.Reach

set_option autoImplicit false

namespace SemiThue

/-! ## What recording does to a graph -/

namespace Derivation.Graph

variable {g : Graph} {s : Step} {t u : Text} {v : Option Verdict}

theorem hasNode_of_mem {n : Node} (h : n ∈ g.nodes) : g.hasNode n.text = true :=
  hasNode_iff.2 ⟨n, h, rfl⟩

theorem hasNode_addNode : (g.addNode t v).hasNode u = true ↔ u = t ∨ g.hasNode u = true := by
  cases h : g.hasNode t with
  | true =>
    rw [addNode_of_hasNode h]
    refine ⟨.inr, fun hu => ?_⟩
    rcases hu with rfl | hu
    · exact h
    · exact hu
  | false =>
    rw [hasNode_iff, nodes_addNode_of_not_hasNode h, List.exists_mem_cons_iff, hasNode_iff, eq_comm]

theorem hasEdge_addNode {source output : Text} :
    (g.addNode t v).hasEdge source output = true ↔ g.hasEdge source output = true := by
  rw [hasEdge_iff, hasEdge_iff, edges_addNode]

/-- An edge between texts that are nodes already adds no node. -/
theorem nodes_addEdge (source : g.hasNode s.source = true) (output : g.hasNode s.output = true) :
    (g.addEdge s).nodes = g.nodes := by
  unfold addEdge
  split
  · rfl
  · simp only [addNode_of_hasNode source, addNode_of_hasNode output]

@[simp] theorem root_addEdge : (g.addEdge s).root = g.root := by
  unfold addEdge
  split
  · rfl
  · simp

theorem hasEdge_addEdge {source output : Text} : (g.addEdge s).hasEdge source output = true ↔
    (s.source = source ∧ s.output = output) ∨ g.hasEdge source output = true := by
  cases h : g.hasEdge s.source s.output with
  | true =>
    rw [addEdge_of_hasEdge h]
    refine ⟨.inr, fun he => ?_⟩
    rcases he with ⟨rfl, rfl⟩ | he
    · exact h
    · exact he
  | false =>
    rw [hasEdge_iff, edges_addEdge_of_not_hasEdge h, List.exists_mem_cons_iff, hasEdge_iff]

theorem mem_edges_addEdge {e : Step} (h : e ∈ (g.addEdge s).edges) : e = s ∨ e ∈ g.edges := by
  cases hs : g.hasEdge s.source s.output with
  | true =>
    rw [addEdge_of_hasEdge hs] at h
    exact .inr h
  | false =>
    rw [edges_addEdge_of_not_hasEdge hs] at h
    exact List.mem_cons.1 h

/-- An edge takes no node away. -/
theorem hasNode_addEdge (h : g.hasNode t = true) : (g.addEdge s).hasNode t = true := by
  unfold addEdge
  split
  · exact h
  · exact hasNode_addNode.2 (.inr (hasNode_addNode.2 (.inr h)))

section Recording

variable {verdict : Verdict}

/-- A verdict with which an application goes into the graph: its output becomes a node. -/
theorem enter_of_productive (h : verdict = .word ∨ verdict = .live) :
    g.enter s verdict = g.addNode s.output (some verdict) := by
  rcases h with rfl | rfl <;> rfl

/-- Then the step becomes an edge. -/
theorem link_of_productive (h : verdict = .word ∨ verdict = .live) :
    g.link s verdict = g.addEdge s := by
  rcases h with rfl | rfl <;> rfl

/-- Any other application is not entered, -/
theorem enter_of_not_productive (h : ¬(verdict = .word ∨ verdict = .live)) :
    g.enter s verdict = g := by
  cases verdict with
  | unchanged => rfl
  | dropped => rfl
  | word => exact absurd (.inl rfl) h
  | live => exact absurd (.inr rfl) h

/-- and then it is counted only. -/
theorem link_of_not_productive (h : ¬(verdict = .word ∨ verdict = .live)) :
    (g.link s verdict).root = g.root ∧ (g.link s verdict).nodes = g.nodes ∧
      (g.link s verdict).edges = g.edges := by
  cases verdict with
  | unchanged => exact ⟨rfl, rfl, rfl⟩
  | dropped => exact ⟨rfl, rfl, rfl⟩
  | word => exact absurd (.inl rfl) h
  | live => exact absurd (.inr rfl) h

theorem record_of_productive (h : verdict = .word ∨ verdict = .live) :
    g.record s verdict = (g.addNode s.output (some verdict)).addEdge s := by
  rw [record, enter_of_productive h, link_of_productive h]

theorem record_of_not_productive (h : ¬(verdict = .word ∨ verdict = .live)) :
    (g.record s verdict).root = g.root ∧ (g.record s verdict).nodes = g.nodes ∧
      (g.record s verdict).edges = g.edges := by
  rw [record, enter_of_not_productive h]
  exact link_of_not_productive h

/-- What is entered leads nowhere yet, and nothing leads to it. -/
@[simp] theorem edges_enter : (g.enter s verdict).edges = g.edges := by
  by_cases hv : verdict = .word ∨ verdict = .live
  · rw [enter_of_productive hv, edges_addNode]
  · rw [enter_of_not_productive hv]

theorem hasEdge_enter {source output : Text} :
    (g.enter s verdict).hasEdge source output = true ↔ g.hasEdge source output = true := by
  rw [hasEdge_iff, hasEdge_iff, edges_enter]

/-- Edges stay. -/
theorem hasEdge_link {source output : Text} (h : g.hasEdge source output = true) :
    (g.link s verdict).hasEdge source output = true := by
  by_cases hv : verdict = .word ∨ verdict = .live
  · rw [link_of_productive hv, hasEdge_addEdge]
    exact .inr h
  · rw [hasEdge_iff, (link_of_not_productive hv).2.2, ← hasEdge_iff]
    exact h

/-- What is linked as productive has its edge. -/
theorem hasEdge_link_self (h : verdict = .word ∨ verdict = .live) :
    (g.link s verdict).hasEdge s.source s.output = true := by
  rw [link_of_productive h, hasEdge_addEdge]
  exact .inl ⟨rfl, rfl⟩

/-- Nodes stay. -/
theorem hasNode_enter (h : g.hasNode t = true) : (g.enter s verdict).hasNode t = true := by
  by_cases hv : verdict = .word ∨ verdict = .live
  · rw [enter_of_productive hv]
    exact hasNode_addNode.2 (.inr h)
  · rw [enter_of_not_productive hv]
    exact h

theorem hasNode_link (h : g.hasNode t = true) : (g.link s verdict).hasNode t = true := by
  by_cases hv : verdict = .word ∨ verdict = .live
  · rw [link_of_productive hv]
    exact hasNode_addEdge h
  · rw [hasNode_iff, (link_of_not_productive hv).2.1, ← hasNode_iff]
    exact h

/-- What is entered as productive is a node. -/
theorem hasNode_enter_self (h : verdict = .word ∨ verdict = .live) :
    (g.enter s verdict).hasNode s.output = true := by
  rw [enter_of_productive h]
  exact hasNode_addNode_self

/-- A node was one before the entry, or it is what was entered. -/
theorem hasNode_or_eq_of_enter (h : (g.enter s verdict).hasNode t = true) :
    g.hasNode t = true ∨ (verdict = .word ∨ verdict = .live) ∧ t = s.output := by
  by_cases hv : verdict = .word ∨ verdict = .live
  · rw [enter_of_productive hv] at h
    exact (hasNode_addNode.1 h).symm.imp_right fun same => ⟨hv, same⟩
  · rw [enter_of_not_productive hv] at h
    exact .inl h

end Recording

end Derivation.Graph

namespace Exploration

open SemiThue.Derivation (Graph Node)

variable {scope : Scope} {start : Text} {g : Graph} {a : Application}

/-! ## Productive applications -/

/-- **An application that goes into the graph** of a run from the start. -/
structure Scope.Productive (scope : Scope) (start : Text) (a : Application) : Prop where
  /-- Its source is to be taken up. -/
  reach : scope.Reach start a.step.source
  /-- It is the application of a rule to that source. -/
  applied : a ∈ scope.applications a.step.source
  /-- It gave something to tell or to go on with. -/
  verdict : a.verdict = .word ∨ a.verdict = .live

theorem Scope.source_of_mem_applications {text : Text} (h : a ∈ scope.applications text) :
    a.step.source = text := by
  obtain ⟨rule, -, rfl⟩ := mem_applications.1 h
  rfl

namespace Scope.Productive

/-- The rule and what it gave. -/
theorem exists_rule (h : scope.Productive start a) :
    ∃ rule ∈ scope.grammar.rules, a = scope.apply a.step.source rule := by
  obtain ⟨rule, mem, same⟩ := Scope.mem_applications.1 h.applied
  exact ⟨rule, mem, same.symm⟩

/-- A productive application made a text of some other. -/
theorem changed (h : scope.Productive start a) : a.step.output ≠ a.step.source := by
  obtain ⟨rule, -, same⟩ := h.exists_rule
  have verdict := h.verdict
  rw [same, Scope.verdict_eq_word_iff, Scope.verdict_eq_live_iff] at verdict
  rw [same]
  rcases verdict with word | live
  · exact word.1
  · exact live.1

/-- The verdict on a text is word exactly if nothing in it can be rewritten. -/
theorem word_iff (h : scope.Productive start a) :
    a.verdict = .word ↔ ∀ c ∈ a.step.output, [c] ∈ scope.grammar.terminals := by
  obtain ⟨rule, -, same⟩ := h.exists_rule
  rw [same]
  refine ⟨fun word => (Scope.verdict_eq_word_iff.1 word).2.2.2, fun all => ?_⟩
  have verdict := h.verdict
  rw [same] at verdict
  rcases verdict with word | live
  · exact word
  · obtain ⟨-, -, c, mem, rewritable⟩ := Scope.verdict_eq_live_iff.1 live
    exact absurd (all c mem) rewritable

/-- Productive applications that gave the same text got the same verdict. -/
theorem verdict_eq {b : Application} (h : scope.Productive start a) (h' : scope.Productive start b)
    (same : a.step.output = b.step.output) : a.verdict = b.verdict := by
  have word : a.verdict = .word ↔ b.verdict = .word := by rw [h.word_iff, h'.word_iff, same]
  rcases h.verdict with ha | ha <;> rcases h'.verdict with hb | hb <;> simp_all

end Scope.Productive

/-! ## Charts -/

/-- **A graph that charts a part of an exploration.** -/
structure Scope.Charts (scope : Scope) (start : Text) (g : Graph) : Prop where
  /-- Derivations begin at the start. -/
  root : g.root = some start
  /-- No text is a node twice. -/
  nodup : (g.nodes.map Node.text).Nodup
  /-- The start is a node, as a live text. -/
  start_mem : ⟨start, some .live⟩ ∈ g.nodes
  /-- Any other node is what a productive application gave, with its verdict. -/
  nodes : ∀ n ∈ g.nodes, n.text ≠ start →
    ∃ a, scope.Productive start a ∧ a.step.output = n.text ∧ n.verdict = some a.verdict
  /-- The edges are steps of productive applications, from node to node. -/
  edges : ∀ s ∈ g.edges, g.hasNode s.source = true ∧ g.hasNode s.output = true ∧
    ∃ a, scope.Productive start a ∧ a.step = s

namespace Scope.Charts

theorem ofRoot (scope : Scope) (start : Text) : scope.Charts start (.ofRoot start) where
  root := rfl
  nodup := by simp
  start_mem := by simp
  nodes n hn other := by
    rw [Graph.nodes_ofRoot, List.mem_singleton] at hn
    exact absurd (congrArg Node.text hn) other
  edges s hs := by simp at hs

theorem hasNode_start (h : scope.Charts start g) : g.hasNode start = true :=
  Graph.hasNode_of_mem h.start_mem

/-- There is one node for a text. -/
theorem node_eq (h : scope.Charts start g) {n m : Node} (hn : n ∈ g.nodes) (hm : m ∈ g.nodes)
    (same : n.text = m.text) : n = m :=
  List.inj_on_of_nodup_map h.nodup hn hm same

/-- A chart of the same nodes and edges, whatever was counted besides. -/
theorem congr (h : scope.Charts start g) {g' : Graph} (root : g'.root = g.root)
    (nodes : g'.nodes = g.nodes) (edges : g'.edges = g.edges) : scope.Charts start g' where
  root := root.trans h.root
  nodup := by rw [nodes]; exact h.nodup
  start_mem := by rw [nodes]; exact h.start_mem
  nodes := by rw [nodes]; exact h.nodes
  edges s hs := by
    rw [edges] at hs
    rw [Graph.hasNode_iff, Graph.hasNode_iff, nodes, ← Graph.hasNode_iff, ← Graph.hasNode_iff]
    exact h.edges s hs

/-- The output of a productive application becomes a node. -/
theorem addNode (h : scope.Charts start g) (productive : scope.Productive start a) :
    scope.Charts start (g.addNode a.step.output (some a.verdict)) := by
  cases known : g.hasNode a.step.output with
  | true =>
    rw [Graph.addNode_of_hasNode known]
    exact h
  | false =>
    have nodes := Graph.nodes_addNode_of_not_hasNode (v := some a.verdict) known
    refine ⟨by rw [Graph.root_addNode]; exact h.root, ?_, ?_, ?_, fun s hs => ?_⟩
    · rw [nodes, List.map_cons, List.nodup_cons]
      refine ⟨fun mem => ?_, h.nodup⟩
      obtain ⟨n, hn, same⟩ := List.mem_map.1 mem
      have already : g.hasNode a.step.output = true := Graph.hasNode_iff.2 ⟨n, hn, same⟩
      rw [known] at already
      cases already
    · rw [nodes]
      exact List.mem_cons_of_mem _ h.start_mem
    · intro n hn other
      rw [nodes] at hn
      rcases List.mem_cons.1 hn with rfl | hn
      · exact ⟨a, productive, rfl, rfl⟩
      · exact h.nodes n hn other
    · rw [Graph.edges_addNode] at hs
      obtain ⟨source, output, given⟩ := h.edges s hs
      exact ⟨Graph.hasNode_addNode.2 (.inr source), Graph.hasNode_addNode.2 (.inr output), given⟩

/-- The step of a productive application between nodes becomes an edge. -/
theorem addEdge (h : scope.Charts start g) (productive : scope.Productive start a)
    (source : g.hasNode a.step.source = true) (output : g.hasNode a.step.output = true) :
    scope.Charts start (g.addEdge a.step) := by
  have nodes := Graph.nodes_addEdge source output
  have same : ∀ t, (g.addEdge a.step).hasNode t = true ↔ g.hasNode t = true := fun t => by
    rw [Graph.hasNode_iff, nodes, Graph.hasNode_iff]
  refine ⟨by rw [Graph.root_addEdge]; exact h.root, by rw [nodes]; exact h.nodup,
    by rw [nodes]; exact h.start_mem, by rw [nodes]; exact h.nodes, fun s hs => ?_⟩
  rw [same, same]
  rcases Graph.mem_edges_addEdge hs with rfl | hs
  · exact ⟨source, output, a, productive, rfl⟩
  · exact h.edges s hs

/-- **Whatever is entered next, the graph stays a chart.** -/
theorem enter (h : scope.Charts start g) (reach : scope.Reach start a.step.source)
    (applied : a ∈ scope.applications a.step.source) :
    scope.Charts start (g.enter a.step a.verdict) := by
  by_cases hv : a.verdict = .word ∨ a.verdict = .live
  · rw [Graph.enter_of_productive hv]
    exact h.addNode ⟨reach, applied, hv⟩
  · rw [Graph.enter_of_not_productive hv]
    exact h

/-- **Whatever is linked next, the graph stays a chart**, if the source is a node and the output was
entered. -/
theorem link (h : scope.Charts start g) (reach : scope.Reach start a.step.source)
    (applied : a ∈ scope.applications a.step.source) (source : g.hasNode a.step.source = true)
    (output : a.verdict = .word ∨ a.verdict = .live → g.hasNode a.step.output = true) :
    scope.Charts start (g.link a.step a.verdict) := by
  by_cases hv : a.verdict = .word ∨ a.verdict = .live
  · rw [Graph.link_of_productive hv]
    exact h.addEdge ⟨reach, applied, hv⟩ source (output hv)
  · obtain ⟨root, nodes, edges⟩ := Graph.link_of_not_productive (g := g) (s := a.step) hv
    exact h.congr root nodes edges

/-- **Whatever is recorded next, the graph stays a chart**, if the source is a node. -/
theorem record (h : scope.Charts start g) (reach : scope.Reach start a.step.source)
    (applied : a ∈ scope.applications a.step.source) (source : g.hasNode a.step.source = true) :
    scope.Charts start (g.record a.step a.verdict) :=
  (h.enter reach applied).link reach applied (Graph.hasNode_enter source) Graph.hasNode_enter_self

end Scope.Charts

/-! ## Complete charts -/

/-- **A chart of the whole exploration**: every productive application has its edge. -/
structure Scope.ChartsAll (scope : Scope) (start : Text) (g : Graph) : Prop
    extends scope.Charts start g where
  /-- There is an edge wherever a productive application leads. -/
  complete : ∀ a, scope.Productive start a → g.hasEdge a.step.source a.step.output = true

namespace Scope.ChartsAll

/-- **The texts of a complete chart** are the start and what productive applications give. -/
theorem hasNode_iff (h : scope.ChartsAll start g) {t : Text} :
    g.hasNode t = true ↔ t = start ∨ ∃ a, scope.Productive start a ∧ a.step.output = t := by
  constructor
  · intro node
    obtain ⟨n, hn, rfl⟩ := Graph.hasNode_iff.1 node
    by_cases other : n.text = start
    · exact .inl other
    · obtain ⟨a, productive, output, -⟩ := h.nodes n hn other
      exact .inr ⟨a, productive, output⟩
  · rintro (rfl | ⟨a, productive, rfl⟩)
    · exact h.hasNode_start
    · obtain ⟨e, he, -, output⟩ := Graph.hasEdge_iff.1 (h.complete a productive)
      rw [← output]
      exact (h.edges e he).2.1

/-- **The nodes of a complete chart**, told without it: the start, and what productive applications give. -/
theorem mem_nodes_iff (h : scope.ChartsAll start g) {n : Node} :
    n ∈ g.nodes ↔ n = ⟨start, some .live⟩ ∨
      n.text ≠ start ∧ ∃ a, scope.Productive start a ∧ n = ⟨a.step.output, some a.verdict⟩ := by
  constructor
  · intro hn
    by_cases other : n.text = start
    · exact .inl (h.node_eq hn h.start_mem other)
    · obtain ⟨a, productive, output, verdict⟩ := h.nodes n hn other
      obtain ⟨text, _⟩ := n
      exact .inr ⟨other, a, productive, by rw [output, ← verdict]⟩
  · rintro (rfl | ⟨other, a, productive, rfl⟩)
    · exact h.start_mem
    · -- there is a node for that text, and another application gave it the same verdict
      have node := h.hasNode_iff.2 (.inr ⟨a, productive, rfl⟩)
      obtain ⟨⟨text, verdict⟩, hm, rfl⟩ := Graph.hasNode_iff.1 node
      obtain ⟨b, productive', output, rfl⟩ := h.nodes _ hm other
      rw [productive.verdict_eq productive' output.symm]
      exact hm

/-- **The words of a complete chart** are what productive applications give as words, except the
start. -/
theorem exists_word_node_iff (h : scope.ChartsAll start g) {t : Text} :
    (∃ n ∈ g.nodes, n.text = t ∧ n.verdict = some .word) ↔
      t ≠ start ∧ ∃ a, scope.Productive start a ∧ a.step.output = t ∧ a.verdict = .word := by
  constructor
  · rintro ⟨n, hn, rfl, word⟩
    rcases h.mem_nodes_iff.1 hn with rfl | ⟨other, a, productive, rfl⟩
    · cases word
    · exact ⟨other, a, productive, rfl, Option.some.inj word⟩
  · rintro ⟨other, a, productive, rfl, word⟩
    exact ⟨_, h.mem_nodes_iff.2 (.inr ⟨other, a, productive, rfl⟩), rfl, congrArg some word⟩

end Scope.ChartsAll

end Exploration

end SemiThue
