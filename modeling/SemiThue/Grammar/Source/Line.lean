/-
One line of a grammar file, and the one effect that it has.

A line is cut at its comment and trimmed. If nothing is left, it has no effect. A line with an arrow
is meant as rules, whatever else it holds; one with an equals sign as a setting; any other is a
mistake. Rules need exactly one arrow, and something before it; what follows the arrow is cut at bars
into alternatives, and each of them gives one rule. There are two settings, the bound and the
alphabet.

A line is given in full or not at all: either all its rules are there, or its setting is made, or
there is a complaint and nothing else.
-/
import SemiThue.Grammar.Basic
import SemiThue.Grammar.Source.Diagnostic
import SemiThue.Text.Letter
import SemiThue.Text.Numeral

set_option autoImplicit false

namespace SemiThue.Grammar.Source

/-- The effect of a line. -/
inductive Effect where
  /-- Nothing, because nothing is there. -/
  | blank
  /-- Rules are added. -/
  | rules (added : List Rule)
  /-- The bound is set. -/
  | bound (n : Nat) (pos : 0 < n)
  /-- The terminals are set. -/
  | alphabet (letters : List Text)
  /-- Nothing, because of a mistake. -/
  | mistake (problem : Problem)

namespace Line

/-- A line without its comment and without blanks at its ends. -/
def content (raw : Text) : Text := (raw.before '#').trim

/-- The pieces of a text between arrows of both kinds. -/
def cutArrows : Text → List Text
  | [] => [[]]
  | '-' :: '>' :: rest => [] :: cutArrows rest
  | '=' :: '>' :: rest => [] :: cutArrows rest
  | c :: rest => (cutArrows rest).modifyHead (c :: ·)

/-- The right sides that stand after an arrow. -/
def alternatives (right : Text) : List Text := (right.cut ['|']).map fun t => Rule.withoutMarks t.trim

/-- The effect of the two sides of an arrow. -/
def ruleEffect (left right : Text) : Effect :=
  if h : left = [] then .mistake .badRule
  else .rules ((alternatives right).map fun t => ⟨left, t, h⟩)

/-- The effect of setting the bound. -/
def boundEffect (value : Text) : Effect :=
  match value.int? with
  | none => .mistake .boundNotNumber
  | some n => if h : n ≤ 0 then .mistake .boundNotPositive else .bound n.toNat (toNat_pos_of_not_le h)

/-- The effect of setting the alphabet: all letters of the value count, and nothing else does. -/
def alphabetEffect (value : Text) : Effect :=
  let letters := value.filter Text.isLetter
  if letters.isEmpty then .mistake .noLetters else .alphabet (letters.map ([·]))

/-- The effect of a setting. -/
def settingEffect (name value : Text) : Effect :=
  if name = ['n'] then boundEffect value
  else if name = ['L'] then alphabetEffect value
  else .mistake (.unknownName name)

/-- **The effect of a line**, given its content. -/
def effect (content : Text) : Effect :=
  if content.isEmpty then .blank
  else
    match cutArrows content with
    | [left, right] => ruleEffect (Text.trim left) (Text.trim right)
    | _ :: _ :: _ => .mistake .badRule
    | _ =>
      if content.contains '=' then
        settingEffect (content.before '=').trim (content.after '=').trim
      else .mistake .unreadable

end Line

end SemiThue.Grammar.Source
