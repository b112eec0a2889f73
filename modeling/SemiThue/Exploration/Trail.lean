/-
What both strategies of exploration have in common: how one rule is applied to one text, and the trail
that an exploration leaves.

The trail holds the texts that were taken up, the counts of what their rules gave, the graph of
derivations if one is kept, the journal, and the state of the listener that is told the words. It is
changed by small operations, one for each thing that happens to an application: it is counted,
recorded, announced, and its word, if it is one, is told. They are separate because workers of a pool
perform them at separate moments; to record it is even two of them there, its node and its edge.
-/
import SemiThue.Action
import SemiThue.Derivation.Graph
import SemiThue.Exploration.Outstanding
import SemiThue.Journal

set_option autoImplicit false

namespace SemiThue.Exploration

/-- Who is told the words. It sees how many texts are outstanding, and may answer with a fault, by which
it refuses the word or asks to leave; what it did until then stays done. -/
abbrev Listener (σ : Type) := (outstanding : Outstanding) → (word : Text) → Action σ

/-- What is explored: a grammar, and how far past its bound texts may grow. -/
structure Scope where
  /-- The grammar. -/
  grammar : Grammar
  /-- How far past the bound a text may grow. -/
  margin : Int
deriving DecidableEq, Repr

/-- One application of a rule, judged. -/
structure Application where
  /-- What was done. -/
  step : Derivation.Step
  /-- What becomes of the result. -/
  verdict : Verdict
deriving DecidableEq, Repr

namespace Scope

/-- The greatest length of a text that is taken up. -/
def limit (s : Scope) : Int := s.grammar.limit s.margin

/-- Applies a rule to a text and judges the result. -/
def apply (s : Scope) (text : Text) (rule : Rule) : Application :=
  ⟨⟨text, rule, rule.rewrite text⟩, s.grammar.judge s.margin text (rule.rewrite text)⟩

@[simp] theorem output_apply (s : Scope) (text : Text) (rule : Rule) :
    (s.apply text rule).step.output = rule.rewrite text := rfl

/-- A live result is not longer than the limit. -/
theorem length_le_limit_of_live {s : Scope} {text : Text} {rule : Rule}
    (h : (s.apply text rule).verdict = .live) : ((rule.rewrite text).length : Int) ≤ s.limit :=
  (Grammar.judge_eq_live_iff.1 h).2.1

end Scope

/-! ## Counts -/

/-- How many applications got which verdict. -/
structure Tally where
  /-- Applications that gave a word. -/
  words : Nat := 0
  /-- Applications that gave a live text. -/
  live : Nat := 0
  /-- Applications whose result was dropped. -/
  dropped : Nat := 0
  /-- Applications that changed nothing. -/
  unchanged : Nat := 0
deriving DecidableEq, Repr

namespace Tally

/-- Counts an application by its verdict. -/
def count (t : Tally) : Verdict → Tally
  | .word => { t with words := t.words + 1 }
  | .live => { t with live := t.live + 1 }
  | .dropped => { t with dropped := t.dropped + 1 }
  | .unchanged => { t with unchanged := t.unchanged + 1 }

/-- How many applications got a verdict. -/
def ofVerdict (t : Tally) : Verdict → Nat
  | .word => t.words
  | .live => t.live
  | .dropped => t.dropped
  | .unchanged => t.unchanged

theorem ofVerdict_count (t : Tally) (v w : Verdict) :
    (t.count v).ofVerdict w = t.ofVerdict w + if v = w then 1 else 0 := by
  cases v <;> cases w <;> rfl

end Tally

/-! ## The trail -/

/-- What an exploration leaves behind. -/
structure Trail (σ : Type) where
  /-- The texts that were taken up, the newest first. -/
  taken : List Text
  /-- The counts. -/
  tally : Tally
  /-- The graph of derivations, if one is kept. -/
  graph : Option Derivation.Graph
  /-- The journal. -/
  journal : Journal
  /-- The state of the listener. -/
  heard : σ

namespace Trail

variable {σ : Type}

/-- Notes that a text is taken up. -/
def opened (t : Trail σ) (text : Text) : Trail σ := { t with taken := text :: t.taken }

/-- How many texts were taken up. -/
def expanded (t : Trail σ) : Nat := t.taken.length

/-- Counts an application. -/
def counted (t : Trail σ) (a : Application) : Trail σ := { t with tally := t.tally.count a.verdict }

/-- Records an application in the graph, if one is kept. -/
def recorded (t : Trail σ) (a : Application) : Trail σ :=
  { t with graph := t.graph.map fun g => g.record a.step a.verdict }

/-- Enters the result of an application into the graph, if one is kept. -/
def entered (t : Trail σ) (a : Application) : Trail σ :=
  { t with graph := t.graph.map fun g => g.enter a.step a.verdict }

/-- Links the result of an application that was entered into the graph, if one is kept. -/
def linked (t : Trail σ) (a : Application) : Trail σ :=
  { t with graph := t.graph.map fun g => g.link a.step a.verdict }

/-- Entering and linking is recording. -/
@[simp] theorem linked_entered (t : Trail σ) (a : Application) :
    (t.entered a).linked a = t.recorded a := by
  simp only [linked, entered, recorded, Option.map_map]
  rfl

/-- Writes a line into the journal. -/
def noted (t : Trail σ) (level : Level) (message : String) : Trail σ :=
  { t with journal := t.journal.write level .explorer message }

/-- Announces an application in the journal, if it gave anything. -/
def announced (t : Trail σ) (a : Application) : Trail σ :=
  match a.verdict with
  | .word => t.noted .debug s!"Word: {a.step.output.toString}"
  | .live => t.noted .debug s!"Stage: {a.step.output.toString}"
  | _ => t

/-- Counts, records and announces an application. -/
def took (t : Trail σ) (a : Application) : Trail σ := ((t.counted a).recorded a).announced a

/-- Tells a word to the listener. -/
def tell (listener : Listener σ) (outstanding : Outstanding) (word : Text) : Action (Trail σ) := fun t =>
  match listener outstanding word t.heard with
  | (heard, fault) => ({ t with heard }, fault)

end Trail

end SemiThue.Exploration
