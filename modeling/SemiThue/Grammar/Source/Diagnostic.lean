/-
What reading a grammar file has to complain about.

A complaint never stops the reading. One about a line carries the number and the text of the line,
which is then ignored; one about what the file as a whole lacks carries neither.
-/
import SemiThue.Text.Basic

set_option autoImplicit false

namespace SemiThue.Grammar.Source

/-- What is wrong with a line or with a file. -/
inductive Problem where
  /-- The line is neither a rule nor a setting. -/
  | unreadable
  /-- The line holds several arrows, or nothing before its arrow. -/
  | badRule
  /-- The bound is not a number. -/
  | boundNotNumber
  /-- The bound is a number that is not positive. -/
  | boundNotPositive
  /-- The alphabet has no letters. -/
  | noLetters
  /-- There is no setting of this name. -/
  | unknownName (name : Text)
  /-- No line sets an alphabet. -/
  | noAlphabet
  /-- No line gives a rule. -/
  | noRules
deriving DecidableEq, Repr

/-- The wording of a problem. -/
def Problem.message : Problem → String
  | .unreadable => "Syntax error in line, neither a rule nor a setting"
  | .badRule => "Syntax error in rule, needs to be in format \"Left -> Right\""
  | .boundNotNumber => "Maximum length n is not an integer"
  | .boundNotPositive => "Maximum length n must be positive"
  | .noLetters => "Terminal alphabet L contains no letters"
  | .unknownName name => s!"Unknown variable \"{name.toString}\" in grammar file"
  | .noAlphabet => "No terminal alphabet L given, no word can be derived"
  | .noRules => "No rules given, no word can be derived"

/-- A complaint. -/
structure Diagnostic where
  /-- The number of the line, counted from one, if the complaint is about a line. -/
  line : Option Int
  /-- The complaint. -/
  message : String
  /-- The line, if the complaint is about one. -/
  text : Text := []
deriving DecidableEq, Repr

namespace Diagnostic

/-- The complaint in words. -/
def describe (d : Diagnostic) : String :=
  let place :=
    match d.line with
    | some line => s!"Line {line}: "
    | none => ""
  if d.text.isEmpty then s!"{place}{d.message}."
  else s!"{place}{d.message}: \"{d.text.toString}\". Ignoring."

/-- A complaint about a line. -/
def ofLine (line : Nat) (problem : Problem) (text : Text) : Diagnostic :=
  ⟨some line, problem.message, text⟩

/-- A complaint about a file. -/
def ofFile (problem : Problem) : Diagnostic := ⟨none, problem.message, []⟩

end Diagnostic

end SemiThue.Grammar.Source
