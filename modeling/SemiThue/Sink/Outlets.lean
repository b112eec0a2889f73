/-
Sinks side by side.

A sink counts words, collects them, shows them, or writes them to a file. Several sinks stand in a
row, and a word goes to some of them in turn, possibly to one of them more than once; the first that
cannot take it ends the matter, and those after it do not hear of the word.
-/
import SemiThue.Sink.Console
import SemiThue.Sink.File

set_option autoImplicit false

namespace SemiThue.Sink

open SemiThue.Files

/-- A sink. -/
inductive Outlet where
  /-- Counts words. -/
  | counter (count : Nat)
  /-- Collects words, the newest first. -/
  | collector (words : List Text)
  /-- Shows words. -/
  | console (c : Console)
  /-- Writes words to a file. -/
  | file (f : File)
deriving DecidableEq, Repr

namespace Outlet

/-- Hands a word to a sink. -/
def send (word : Text) : Action (Outlet × Volume)
  | (.counter count, v) => ((.counter (count + 1), v), none)
  | (.collector words, v) => ((.collector (word :: words), v), none)
  | (.console c, v) => ((.console (c.write word), v), none)
  | (.file f, v) =>
    match File.write word (f, v) with
    | ((f, v), fault) => ((.file f, v), fault)

end Outlet

/-- Sinks in a row, and the files that some of them write to. -/
structure Outlets where
  /-- The sinks. -/
  sinks : List Outlet
  /-- The files. -/
  volume : Volume

namespace Outlets

/-- Performs an action on the sink in a given place. -/
def onSink (i : Nat) (action : Action (Outlet × Volume)) : Action Outlets := fun o =>
  match o.sinks[i]? with
  | none => (o, none)
  | some sink =>
    match action (sink, o.volume) with
    | ((sink, volume), fault) => (⟨o.sinks.set i sink, volume⟩, fault)

/-- Hands a word to the sinks in the given places, in turn. -/
def tee (places : List Nat) (word : Text) : Action Outlets :=
  Action.each (fun i => onSink i (Outlet.send word)) places

/-- Opens the file sink in a given place. -/
def openFile (i : Nat) : Action Outlets :=
  onSink i fun
    | (.file f, v) =>
      match File.openFile (f, v) with
      | ((f, v), fault) => ((.file f, v), fault)
    | s => (s, none)

/-- Leaves a piece of work that ended in this way, and around which the file sink in a given place was
open. -/
def leave (i : Nat) (work : Option Fault) (journal : Journal) (o : Outlets) :
    (Outlets × Journal) × Option Fault :=
  match o.sinks[i]? with
  | some (.file f) =>
    match File.leave work journal (f, o.volume) with
    | (((f, v), journal), fault) => ((⟨o.sinks.set i (.file f), v⟩, journal), fault)
  | _ => ((o, journal), work)

/-- How many words the first counter counted. -/
def count (o : Outlets) : Nat :=
  (o.sinks.findSome? fun
    | .counter count => some count
    | _ => none).getD 0

/-- What the first console wrote. -/
def shown (o : Outlets) : Text :=
  (o.sinks.findSome? fun
    | .console c => some c.written.toText
    | _ => none).getD []

end Outlets

end SemiThue.Sink
