/-
The options of the command line, and what they set.
-/
import SemiThue.Grammar.Basic

set_option autoImplicit false

namespace SemiThue.CommandLine

/-- An option. -/
inductive Key where
  /-- Show the help. -/
  | help
  /-- Also write words to a file. -/
  | outputFile
  /-- Do not show words. -/
  | noDisplay
  /-- The text to start from. -/
  | start
  /-- Show the time that was taken. -/
  | time
  /-- Show rules, progress and a summary. -/
  | verbose
  /-- Show every line of the journal. -/
  | debug
  /-- Use the sequential strategy. -/
  | single
  /-- The number of workers. -/
  | workers
  /-- How far past the bound texts may grow. -/
  | margin
  /-- Look texts up and mark them in two moves. -/
  | noAtomicDedup
  /-- Show a derivation of each word. -/
  | derivations
  /-- Use no colours. -/
  | noColor
deriving DecidableEq, Repr

namespace Key

/-- The names of the options, in the order of the help. -/
def names : List (Text × Key) :=
  [ ("-h", .help), ("--help", .help), ("--output-file", .outputFile), ("--no-display", .noDisplay),
    ("--start", .start), ("--time", .time), ("-v", .verbose), ("--verbose", .verbose),
    ("--debug", .debug), ("--single", .single), ("--workers", .workers), ("--margin", .margin),
    ("--no-atomic-dedup", .noAtomicDedup), ("--derivations", .derivations),
    ("--no-color", .noColor) ].map fun p => (p.1.toList, p.2)

/-- The option of a given name. -/
def ofName? (name : Text) : Option Key := (names.find? fun p => p.1 == name).map Prod.snd

/-- The names of an option in a row. -/
def title (k : Key) : Text := Text.join ['/'] ((names.filter fun p => p.2 == k).map Prod.fst)

/-- The option needs a value. -/
def takesValue : Key → Bool
  | .outputFile | .start | .workers | .margin => true
  | _ => false

end Key

/-- What the command line asks for. -/
structure Options where
  /-- The grammar file. -/
  grammar : Option Text := none
  /-- The file to write words to as well. -/
  outputFile : Option Text := none
  /-- Words are shown. -/
  display : Bool := true
  /-- The text to start from. -/
  start : Text := Grammar.defaultStart
  /-- The time that was taken is shown. -/
  time : Bool := false
  /-- Rules, progress and a summary are shown. -/
  verbose : Bool := false
  /-- Every line of the journal is shown. -/
  debug : Bool := false
  /-- The strategy is sequential. -/
  single : Bool := false
  /-- The number of workers, if one is asked for. -/
  workers : Option Int := none
  /-- How far past the bound texts may grow. -/
  margin : Int := Grammar.defaultMargin
  /-- Texts are looked up and marked in one move. -/
  atomic : Bool := true
  /-- A derivation of each word is shown. -/
  derivations : Bool := false
  /-- Colours are used. -/
  color : Bool := true
  /-- The options whose last value was the mark that ends the options, and which have none therefore. -/
  lost : List Key := []
deriving DecidableEq, Repr

/-- Misuse of the command line. -/
inductive Misuse where
  /-- An abbreviation that could stand for several options. -/
  | ambiguous (arg : Text) (candidates : List Text)
  /-- An option without its value. -/
  | valueMissing (k : Key)
  /-- A value that should be a number. -/
  | notNumber (k : Key) (value : Text)
  /-- A value for an option that has none. -/
  | valueIgnored (k : Key) (value : Text)
  /-- Arguments that mean nothing. -/
  | unrecognized (args : List Text)
deriving DecidableEq, Repr

/-- Texts in a row. -/
def inRow (between : String) (texts : List Text) : String :=
  between.intercalate (texts.map Text.toString)

/-- What is wrong with one option. -/
def Key.complaint (k : Key) (what : String) : String := s!"argument {k.title.toString}: {what}"

/-- The misuse in words. -/
def Misuse.message : Misuse → String
  | .ambiguous arg candidates =>
    let names := inRow ", " candidates
    s!"ambiguous option: {arg.toString} could match {names}"
  | .valueMissing k => k.complaint "expected one argument"
  | .notNumber k value => k.complaint s!"invalid int value: {value.quoted}"
  | .valueIgnored k value => k.complaint s!"ignored explicit argument {value.quoted}"
  | .unrecognized args =>
    let row := inRow " " args
    s!"unrecognized arguments: {row}"

end SemiThue.CommandLine
