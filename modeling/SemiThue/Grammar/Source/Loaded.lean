/-
Grammar files as a whole.

A file is read line by line. What it says is gathered in a draft: the bound, the alphabet if some line
set one, the rules, and the complaints. A later setting takes the place of an earlier one, and a
mistake leaves everything as it was. In the end two complaints may be added about what the file lacks,
and the draft becomes a grammar. There is always a grammar.
-/
import SemiThue.Grammar.Source.Line
import SemiThue.Journal
import SemiThue.Text.Lines

set_option autoImplicit false

namespace SemiThue.Grammar.Source

/-- What was gathered from the lines read so far. -/
structure Draft where
  /-- The bound. -/
  bound : Nat := defaultBound
  /-- The bound admits some word. -/
  bound_pos : 0 < bound := by decide
  /-- The terminals, if some line set them. -/
  alphabet : Option (List Text) := none
  /-- The rules, the newest first. -/
  rules : List Rule := []
  /-- The complaints, the newest first. -/
  diagnostics : List Diagnostic := []
  /-- What the journal says about it. -/
  journal : Journal := {}

/-- A grammar that was read from a file. -/
structure Loaded where
  /-- The grammar. -/
  grammar : Grammar
  /-- Where it was read from. -/
  origin : Text
  /-- The complaints. -/
  diagnostics : List Diagnostic
  /-- What the journal says about it. -/
  journal : Journal
deriving DecidableEq, Repr

namespace Draft

/-- Adds a complaint. -/
def complain (d : Draft) (origin : Text) (diagnostic : Diagnostic) : Draft :=
  { d with
    diagnostics := diagnostic :: d.diagnostics
    journal := d.journal.write .warning .loader s!"{origin.toString}: {diagnostic.describe}" }

/-- Adds a rule. -/
def addRule (d : Draft) (r : Rule) : Draft :=
  { d with
    rules := r :: d.rules
    journal := d.journal.write .debug .loader s!"Added rule: {r.display}" }

/-- Takes the effect of a line with the given number and content. -/
def take (d : Draft) (origin : Text) (number : Nat) (content : Text) : Effect → Draft
  | .blank => d
  | .rules added => added.foldl addRule d
  | .bound n pos => { d with bound := n, bound_pos := pos }
  | .alphabet letters => { d with alphabet := some letters }
  | .mistake problem => d.complain origin (.ofLine number problem content)

/-- Reads the lines of a file, the first of which has the given number. -/
def read (origin : Text) (number : Nat) (d : Draft) : List Text → Draft
  | [] => d
  | raw :: others =>
    let content := Line.content raw
    read origin (number + 1) (d.take origin number content (Line.effect content)) others

/-- Adds the complaints about what the file lacks. -/
def finish (d : Draft) (origin : Text) : Draft :=
  let d := if d.alphabet.isNone then d.complain origin (.ofFile .noAlphabet) else d
  if d.rules.isEmpty then d.complain origin (.ofFile .noRules) else d

/-- The grammar of a draft. -/
def grammar (d : Draft) : Grammar :=
  ⟨d.bound, normalTerminals (d.alphabet.getD []), d.rules.reverse, d.bound_pos⟩

end Draft

namespace Loaded

/-- Where a grammar comes from that was not read from a file. -/
def nowhere : Text := "<string>".toList

/-- **Reads a grammar** from the text of a file. -/
def ofText (source origin : Text) : Loaded :=
  let d := (Draft.read origin 1 {} source.lines).finish origin
  ⟨d.grammar, origin, d.diagnostics.reverse, d.journal⟩

/-- Nothing was wrong. -/
def isClean (l : Loaded) : Bool := l.diagnostics.isEmpty

/-- The grammar and the complaints in several lines. -/
def summary (l : Loaded) : String :=
  let complaints :=
    if l.isClean then []
    else s!"  {l.diagnostics.length} warning(s):" ::
      l.diagnostics.map fun d => s!"    {d.describe}"
  "\n".intercalate (s!"Loaded {l.origin.toString}: {l.grammar.describe}" :: complaints)

end Loaded

end SemiThue.Grammar.Source
