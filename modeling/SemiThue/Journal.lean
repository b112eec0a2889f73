/-
The journal: what the library reports about its work, line by line.

An entry has a level, the part of the program that wrote it, and a message. Nothing is filtered while
it is written; who shows the journal chooses the least level to show.
-/

set_option autoImplicit false

namespace SemiThue

/-- How much an entry matters. -/
inductive Level where
  /-- A single step. -/
  | debug
  /-- The beginning or end of a task. -/
  | info
  /-- Something was skipped. -/
  | warning
  /-- Something failed. -/
  | error
deriving DecidableEq, Repr

namespace Level

/-- The levels in order. -/
def rank : Level → Nat
  | .debug => 0
  | .info => 1
  | .warning => 2
  | .error => 3

/-- The name of a level as it is shown. -/
def name : Level → String
  | .debug => "DEBUG"
  | .info => "INFO"
  | .warning => "WARNING"
  | .error => "ERROR"

end Level

/-- The part of the program that writes an entry. -/
inductive Channel where
  /-- Reading grammar files. -/
  | loader
  /-- Exploring. -/
  | explorer
  /-- Handing words on. -/
  | sinks
deriving DecidableEq, Repr

/-- The name of a channel as it is shown. -/
def Channel.name : Channel → String
  | .loader => "langproc.loader"
  | .explorer => "langproc.explorer"
  | .sinks => "langproc.sinks"

/-- A line of the journal. -/
structure Entry where
  /-- How much it matters. -/
  level : Level
  /-- Who wrote it. -/
  channel : Channel
  /-- What it says. -/
  message : String
deriving DecidableEq, Repr

/-- The entry as a line. -/
def Entry.line (e : Entry) : String := s!"{e.level.name} {e.channel.name}: {e.message}"

/-- The entries written so far. -/
structure Journal where
  /-- The entries, the newest first. -/
  entries : List Entry := []
deriving DecidableEq, Repr

namespace Journal

/-- The entries as a list, the oldest first. -/
def toList (j : Journal) : List Entry := j.entries.reverse

/-- Adds an entry at the end. -/
def write (j : Journal) (level : Level) (channel : Channel) (message : String) : Journal :=
  ⟨⟨level, channel, message⟩ :: j.entries⟩

/-- Adds the entries of another journal at the end. -/
def append (j k : Journal) : Journal := ⟨k.entries ++ j.entries⟩

instance : Append Journal := ⟨append⟩

/-- The lines of the entries of at least the given level. -/
def lines (j : Journal) (least : Level) : List String :=
  (j.toList.filter fun e => least.rank ≤ e.level.rank).map Entry.line

@[simp] theorem toList_empty : toList {} = [] := rfl

@[simp] theorem toList_write (j : Journal) (level : Level) (channel : Channel) (message : String) :
    (j.write level channel message).toList = j.toList ++ [⟨level, channel, message⟩] := by
  simp [toList, write]

@[simp] theorem toList_append (j k : Journal) : (j ++ k).toList = j.toList ++ k.toList := by
  change (j.append k).toList = _
  simp [toList, append]

end Journal

end SemiThue
