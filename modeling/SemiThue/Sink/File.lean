/-
The sink that writes words to a file, one a line.

It is open or closed. A word is taken only while it is open; opening an open sink and closing a closed
one change nothing. Used around a piece of work, it is opened before and closed afterwards, however the
work ended. If the work ended in a fault, this is the fault that counts, and a fault at closing leaves
only a line in the journal.
-/
import SemiThue.Action
import SemiThue.Files.Handle
import SemiThue.Journal

set_option autoImplicit false

namespace SemiThue.Sink

open SemiThue.Files

/-- A sink that writes to a file. -/
structure File where
  /-- The path of the file. -/
  path : Path
  /-- Words go to the end of what is there. -/
  appending : Bool
  /-- The open file, while the sink is open. -/
  handle : Option Handle := none
deriving DecidableEq, Repr

namespace File

/-- Opens the sink, unless it is open. -/
def openFile : Action (File × Volume)
  | (f, v) =>
    match f.handle with
    | some _ => ((f, v), none)
    | none =>
      match v.openFile f.path f.appending with
      | .error fault => ((f, v), some fault)
      | .ok (v, h) => (({ f with handle := some h }, v), none)

/-- Writes a word, if the sink is open. -/
def write (word : Text) : Action (File × Volume)
  | (f, v) =>
    match f.handle with
    | none => ((f, v), some (.sinkNotOpen f.path.toText))
    | some h =>
      match Handle.write (Utf8.encode (word ++ ['\n'])) (h, v) with
      | ((h, v), refusal) => (({ f with handle := some h }, v), refusal.map .system)

/-- Closes the sink. It is closed afterwards, whatever happens. -/
def close : File × Volume → (File × Volume) × Option SystemFault
  | (f, v) =>
    match f.handle with
    | none => ((f, v), none)
    | some h =>
      match Handle.close (h, v) with
      | (v, refusal) => (({ f with handle := none }, v), refusal)

/-- The fault that remains when a piece of work is left, and the journal: that of the work, or else
that of closing. -/
def left (f : File) (journal : Journal) (work : Option Fault) (closing : Option SystemFault) :
    Journal × Option Fault :=
  match work, closing with
  | none, closing => (journal, closing.map .system)
  | some fault, none => (journal, some fault)
  | some fault, some refusal =>
    (journal.write .warning .sinks s!"Closing {f.path.toString} failed: {refusal.message}", some fault)

/-- Leaves a piece of work that ended in this way. -/
def leave (work : Option Fault) (journal : Journal) (s : File × Volume) :
    ((File × Volume) × Journal) × Option Fault :=
  match close s with
  | (s, closing) =>
    match s.1.left journal work closing with
    | (journal, fault) => ((s, journal), fault)

/-- **A piece of work around which the sink is open.** -/
def during (work : Action (File × Volume)) (journal : Journal) (s : File × Volume) :
    ((File × Volume) × Journal) × Option Fault :=
  match openFile s with
  | (s, some fault) => ((s, journal), some fault)
  | (s, none) =>
    match work s with
    | (s, fault) => leave fault journal s

/-- Writes some words, and ends in a given fault. -/
def writeAll (words : List Text) (ending : Option Fault) : Action (File × Volume) := fun s =>
  match Action.each write words s with
  | (s, some fault) => (s, some fault)
  | (s, none) => (s, ending)

end File

end SemiThue.Sink
