/-
Reading a command line.

The arguments are taken in order. An option with a value takes the next argument as its value, if that
is one, and the first other value is the grammar file. What is left over is misuse, but only in the
end: before that, an earlier misuse is reported, and a request for help is followed.

Short options can be written together. They are looked at together before any of them counts.
-/
import SemiThue.CommandLine.Word
import SemiThue.Text.Numeral

set_option autoImplicit false

namespace SemiThue.CommandLine

/-- Why reading a command line stops early. -/
inductive Stop where
  /-- Help was asked for. -/
  | help
  /-- The command line is misused. -/
  | misuse (m : Misuse)
deriving DecidableEq, Repr

/-- A command line read in part. -/
structure Reading where
  /-- What it asks for so far. -/
  options : Options := {}
  /-- No value was taken as the grammar file yet. -/
  free : Bool := true
  /-- What means nothing. -/
  extras : List Text := []
deriving DecidableEq, Repr

namespace Reading

/-- Adds something that means nothing. -/
def extra (r : Reading) (t : Text) : Reading := { r with extras := r.extras ++ [t] }

/-- Takes a value that belongs to no option. -/
def place (r : Reading) (t : Text) : Reading :=
  if r.free then { r with options := { r.options with grammar := some t }, free := false }
  else r.extra t

/-- An option without a value counts. -/
def set (r : Reading) (k : Key) : Except Stop Reading :=
  let o := r.options
  match k with
  | .help => .error .help
  | .noDisplay => .ok { r with options := { o with display := false } }
  | .time => .ok { r with options := { o with time := true } }
  | .verbose => .ok { r with options := { o with verbose := true } }
  | .debug => .ok { r with options := { o with debug := true } }
  | .single => .ok { r with options := { o with single := true } }
  | .noAtomicDedup => .ok { r with options := { o with atomic := false } }
  | .derivations => .ok { r with options := { o with derivations := true } }
  | .noColor => .ok { r with options := { o with color := false } }
  | .outputFile | .start | .workers | .margin => .error (.misuse (.valueMissing k))

/-- The number that is the value of an option. -/
def number (k : Key) (value : Text) : Except Stop Int :=
  match value.int? with
  | some n => .ok n
  | none => .error (.misuse (.notNumber k value))

/-- An option counts whose value is the mark that ends the options: that is no value. A file is not
written then; any other option is left without one, which matters when it is needed. -/
def lose (o : Options) (k : Key) : Options :=
  match k with
  | .outputFile => { o with outputFile := none }
  | _ => { o with lost := k :: o.lost }

/-- An option counts that has a value. -/
def give (o : Options) (k : Key) (value : Text) : Except Stop Options :=
  let o := { o with lost := o.lost.filter (· != k) }
  match k with
  | .outputFile => .ok { o with outputFile := some value }
  | .start => .ok { o with start := value }
  | .workers => (number k value).map fun n => { o with workers := some n }
  | .margin => (number k value).map fun n => { o with margin := n }
  | _ => .error (.misuse (.valueIgnored k value))

/-- An option with a value counts. -/
def setValue (r : Reading) (k : Key) (value : Text) : Except Stop Reading :=
  if value = endMark then .ok { r with options := lose r.options k }
  else (give r.options k value).map fun options => { r with options }

/-- The options that are written together, of which the first is known: each character after it is an
option of its own. -/
def together (k : Key) : Text → Except Stop (List Key)
  | [] => .error (.misuse (.valueIgnored k []))
  | c :: rest =>
    match Key.ofName? ['-', c] with
    | none => .error (.misuse (.valueIgnored k (c :: rest)))
    | some next =>
      if rest.isEmpty then .ok [k, next] else (together next rest).map (k :: ·)

/-- An option counts that has its value, if any, written with it. -/
def written (r : Reading) (w : Written) (value : Text) : Except Stop Reading :=
  if w.key.takesValue then r.setValue w.key value
  else if w.short then do
    let keys ← together w.key value
    keys.foldlM set r
  else .error (.misuse (.valueIgnored w.key value))

/-- Reads the words of a command line. -/
def read (r : Reading) : List Word → Except Stop Reading
  | [] => .ok r
  | .unknown t :: rest => read (r.extra t) rest
  | .known w :: rest =>
    match w.value with
    | some value => do
      let r ← r.written w value
      read r rest
    | none =>
      if w.key.takesValue then
        match rest with
        | .value value :: rest => do
          let r ← r.setValue w.key value
          read r rest
        | _ => .error (.misuse (.valueMissing w.key))
      else do
        let r ← r.set w.key
        read r rest
  | .value t :: .mark :: rest =>
    -- the mark goes with the grammar file that it follows
    read (if r.free then r.place t else (r.extra t).extra endMark) rest
  | .value t :: rest => read (r.place t) rest
  | .mark :: rest => read (if r.free then r else r.extra endMark) rest

/-- What a command line that was read to the end asks for. -/
def finish (r : Reading) : Except Stop Options :=
  if r.extras.isEmpty then .ok r.options else .error (.misuse (.unrecognized r.extras))

end Reading

/-- **What a command line asks for.** -/
def Options.ofArgs (args : List Text) : Except Stop Options :=
  match words args with
  | .error m => .error (.misuse m)
  | .ok words => do
    let r ← Reading.read {} words
    r.finish

end SemiThue.CommandLine
