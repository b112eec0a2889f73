/-
What single arguments are: options, values, or the mark that ends the options.

An argument that begins with a dash is an option if it is the name of one, or the beginning of just
one long name, with or without a value after an equals sign, or a short name with something directly
after it. If nothing fits, it is still a value if it looks like a negative number or holds a space. An
abbreviation that fits several options is misuse, wherever it stands. After the mark everything is a
value.
-/
import SemiThue.CommandLine.Option
import SemiThue.Text.Digit

set_option autoImplicit false

namespace SemiThue.CommandLine

/-- An option as it was written. -/
structure Written where
  /-- The option. -/
  key : Key
  /-- It was written with a single dash. -/
  short : Bool
  /-- The value written directly with it. -/
  value : Option Text
deriving DecidableEq, Repr

/-- What an argument is. -/
inductive Word where
  /-- The mark that ends the options. -/
  | mark
  /-- A value. -/
  | value (t : Text)
  /-- An option. -/
  | known (w : Written)
  /-- Something that looks like an option and is none. -/
  | unknown (t : Text)
deriving DecidableEq, Repr

/-- The mark that ends the options. -/
def endMark : Text := ['-', '-']

/-- What stands before an equals sign, and what after it if there is one. -/
def splitValue (arg : Text) : Text × Option Text :=
  if arg.contains '=' then (arg.before '=', some (arg.after '=')) else (arg, none)

/-- The name begins with a single dash. -/
def isShort (name : Text) : Bool := name[1]? != some '-'

/-- The options that an argument can stand for, with their full names. -/
def candidates (arg : Text) : List (Text × Written) :=
  if isShort arg then
    (Key.names.filter fun p => p.1 == arg.take 2).map fun p =>
      (p.1, ⟨p.2, true, some (arg.drop 2)⟩)
  else
    let (beginning, value) := splitValue arg
    (Key.names.filter fun p => beginning.isPrefixOf p.1).map fun p => (p.1, ⟨p.2, false, value⟩)

/-- At least one digit, and nothing else before the end or a last line feed. -/
def isDigits (t : Text) : Bool :=
  let digits := t.takeWhile fun c => (Text.digit? c).isSome
  let rest := t.drop digits.length
  !digits.isEmpty && (rest.isEmpty || rest == ['\n'])

/-- The argument looks like a negative number, whole or decimal. -/
def looksNegative (arg : Text) : Bool :=
  match arg with
  | '-' :: t =>
    isDigits t ||
      match t.dropWhile fun c => (Text.digit? c).isSome with
      | '.' :: fraction => isDigits fraction
      | _ => false
  | _ => false

/-- What an argument before the mark is. -/
def Word.ofArg (arg : Text) : Except Misuse Word :=
  if arg.head? != some '-' then .ok (.value arg)
  else
    match Key.ofName? arg with
    | some key => .ok (.known ⟨key, isShort arg, none⟩)
    | none =>
      if arg.length = 1 then .ok (.value arg)
      else
        match (Key.ofName? (arg.before '=')).filter fun _ => arg.contains '=' with
        | some key => .ok (.known ⟨key, isShort arg, some (arg.after '=')⟩)
        | none =>
          match candidates arg with
          | [(_, written)] => .ok (.known written)
          | [] => .ok (if looksNegative arg || arg.contains ' ' then .value arg else .unknown arg)
          | several => .error (.ambiguous arg (several.map Prod.fst))

/-- What the arguments of a command line are. -/
def words : List Text → Except Misuse (List Word)
  | [] => .ok []
  | arg :: others =>
    if arg = endMark then .ok (.mark :: others.map .value)
    else do
      let word ← Word.ofArg arg
      let rest ← words others
      pure (word :: rest)

end SemiThue.CommandLine
