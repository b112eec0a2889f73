/-
The graph of derivations.

Its nodes are texts and its edges are rule applications. A node carries the verdict that the text got
when it first appeared, and an edge carries the rule that first produced it: later records of the same
node or edge change nothing. Applications that changed nothing, or whose result was dropped, are only
counted. Nodes and edges are kept in the order in which they came, because the search for a derivation
breaks ties by that order; tables over them, which hold nothing else, serve to look them up.

A record is made of any four things, so a source may be no node yet. It then becomes a node without a
verdict, after its output, and stays without one.

A record is made in two steps, and between them the output is a node that nothing leads to. Whoever
reads the graph at that moment sees it like that.
-/
import SemiThue.Derivation.Step
import SemiThue.Grammar.Basic

set_option autoImplicit false

namespace SemiThue.Derivation

/-- A text of the graph. -/
structure Node where
  /-- The text. -/
  text : Text
  /-- The verdict it got when it first appeared, if it was the output of a rule or the root. -/
  verdict : Option Verdict
deriving DecidableEq, Repr

/-- What was recorded of a run. -/
structure Graph where
  /-- The text that derivations start from. -/
  root : Option Text
  /-- The nodes, the newest first. -/
  nodes : List Node
  /-- The edges, the newest first. -/
  edges : List Step
  /-- How many applications changed nothing. -/
  unchanged : Nat
  /-- How many results were dropped. -/
  dropped : Nat
  /-- The texts of the nodes. -/
  texts : Text.Table Unit
  /-- The edges by the text that they leave. -/
  leaving : Links
  /-- The edges by the text that they arrive at. -/
  arriving : Links
  /-- The table of the texts holds the nodes. -/
  texts_iff : ∀ t, texts.contains t = true ↔ ∃ n ∈ nodes, n.text = t
  /-- The edges that leave a text. -/
  leaving_eq : ∀ t, leaving.under t = edges.filter fun e => e.source == t
  /-- The edges that arrive at a text. -/
  arriving_eq : ∀ t, arriving.under t = edges.filter fun e => e.output == t
deriving DecidableEq, Repr

namespace Graph

/-- The graph without nodes. -/
def empty : Graph where
  root := none
  nodes := []
  edges := []
  unchanged := 0
  dropped := 0
  texts := {}
  leaving := {}
  arriving := {}
  texts_iff := by simp
  leaving_eq := by simp
  arriving_eq := by simp

/-- The text is a node. -/
def hasNode (g : Graph) (t : Text) : Bool := g.texts.contains t

/-- There is an edge from the first text to the second. -/
def hasEdge (g : Graph) (source output : Text) : Bool :=
  (g.leaving.under source).any fun e => e.output == output

/-- Adds a node unless the text is one already. -/
def addNode (g : Graph) (t : Text) (verdict : Option Verdict) : Graph :=
  if g.hasNode t then g
  else
    { g with
      nodes := ⟨t, verdict⟩ :: g.nodes
      texts := g.texts.insert t ()
      texts_iff := fun u => by
        rw [Text.Table.contains_insert, Bool.or_eq_true, beq_iff_eq, g.texts_iff]
        simp [eq_comm] }

/-- Adds an edge unless there is one between the same texts. -/
def addEdge (g : Graph) (s : Step) : Graph :=
  if g.hasEdge s.source s.output then g
  else
    let g := (g.addNode s.source none).addNode s.output none
    { g with
      edges := s :: g.edges
      leaving := g.leaving.file s.source s
      arriving := g.arriving.file s.output s
      leaving_eq := Links.under_file_eq_filter (by simpa using g.leaving_eq) s
      arriving_eq := Links.under_file_eq_filter (by simpa using g.arriving_eq) s }

/-- The graph of a run that begins: only its root, as a text still to be rewritten. -/
def ofRoot (root : Text) : Graph :=
  { empty.addNode root (some .live) with root := some root }

/-- The first half of a record: the result becomes a node, if it is to be one. -/
def enter (g : Graph) (s : Step) : Verdict → Graph
  | .unchanged | .dropped => g
  | verdict => g.addNode s.output (some verdict)

/-- The second half of a record: the step becomes an edge, or is counted. -/
def link (g : Graph) (s : Step) : Verdict → Graph
  | .unchanged => { g with unchanged := g.unchanged + 1 }
  | .dropped => { g with dropped := g.dropped + 1 }
  | _ => g.addEdge s

/-- **Records one application** with the verdict on its result. -/
def record (g : Graph) (s : Step) (verdict : Verdict) : Graph := (g.enter s verdict).link s verdict

/-- The nodes with a given verdict, sorted. -/
def withVerdict (g : Graph) (v : Verdict) : List Text :=
  Text.sort ((g.nodes.filter fun n => n.verdict == some v).map Node.text)

/-- The words of the graph, sorted. -/
def words (g : Graph) : List Text := g.withVerdict .word

/-- The texts of the graph that are still to be rewritten, sorted. -/
def intermediates (g : Graph) : List Text := g.withVerdict .live

/-- How many applications with a verdict were left out of the graph. -/
def skipped (g : Graph) : Verdict → Nat
  | .unchanged => g.unchanged
  | .dropped => g.dropped
  | _ => 0

/-- The root as it is shown. -/
def shownRoot (g : Graph) : String := g.root.elim "None" Text.quoted

/-- The graph in numbers. -/
def summary (g : Graph) : String :=
  s!"Derivation graph from {g.shownRoot}: {g.intermediates.length} intermediates, {g.words.length} words, {g.edges.length} edges ({g.unchanged} no-ops, {g.dropped} discarded)"

/-- The graph as it is shown to programmers. -/
def describe (g : Graph) : String :=
  s!"<DerivationGraph: {g.nodes.length} nodes, {g.edges.length} edges>"

/-! ## What recording does to nodes and edges -/

variable {g : Graph} {s : Step} {t : Text} {v : Option Verdict}

theorem hasNode_iff : g.hasNode t = true ↔ ∃ n ∈ g.nodes, n.text = t := g.texts_iff t

theorem hasEdge_iff {source output : Text} :
    g.hasEdge source output = true ↔ ∃ e ∈ g.edges, e.source = source ∧ e.output = output := by
  simp [hasEdge, g.leaving_eq]

@[simp] theorem edges_addNode : (g.addNode t v).edges = g.edges := by
  unfold addNode; split <;> rfl

@[simp] theorem root_addNode : (g.addNode t v).root = g.root := by
  unfold addNode; split <;> rfl

theorem addNode_of_hasNode (h : g.hasNode t = true) : g.addNode t v = g := by
  simp [addNode, h]

/-- A node that is added comes first; the others stay, in their order and with their verdicts. -/
theorem nodes_addNode_of_not_hasNode (h : g.hasNode t = false) :
    (g.addNode t v).nodes = ⟨t, v⟩ :: g.nodes := by
  simp [addNode, h]

/-- A text that was added is a node. -/
theorem hasNode_addNode_self : (g.addNode t v).hasNode t = true := by
  cases h : g.hasNode t with
  | true => rw [addNode_of_hasNode h, h]
  | false => exact hasNode_iff.2 ⟨⟨t, v⟩, by simp [nodes_addNode_of_not_hasNode h], rfl⟩

theorem addEdge_of_hasEdge (h : g.hasEdge s.source s.output = true) : g.addEdge s = g := by
  simp [addEdge, h]

/-- An edge that is added comes first. -/
theorem edges_addEdge_of_not_hasEdge (h : g.hasEdge s.source s.output = false) :
    (g.addEdge s).edges = s :: g.edges := by
  simp [addEdge, h]

@[simp] theorem nodes_ofRoot (root : Text) : (ofRoot root).nodes = [⟨root, some .live⟩] := rfl

@[simp] theorem edges_ofRoot (root : Text) : (ofRoot root).edges = [] := rfl

@[simp] theorem record_unchanged :
    g.record s .unchanged = { g with unchanged := g.unchanged + 1 } := rfl

@[simp] theorem record_dropped : g.record s .dropped = { g with dropped := g.dropped + 1 } := rfl

@[simp] theorem record_word :
    g.record s .word = (g.addNode s.output (some .word)).addEdge s := rfl

@[simp] theorem record_live :
    g.record s .live = (g.addNode s.output (some .live)).addEdge s := rfl

end Graph

end SemiThue.Derivation
