/-
Files open for writing.

What is sent to an open file is kept back until the medium takes it. Each attempt to write offers all
that is kept back; if the medium refuses, it stays, and a later attempt, at the latest the one made at
closing, offers it again together with what came meanwhile. But no more than a certain number of bytes
is ever kept back. What would exceed it is offered to the medium by itself, after what was kept back
before, and is lost if either is refused. A closed file is closed, whatever the medium said.
-/
import SemiThue.Files.Volume

set_option autoImplicit false

namespace SemiThue.Files

/-- A file open for writing. -/
structure Handle where
  /-- The place of the file. -/
  place : Place
  /-- Where the next bytes go, unless they go to the end. -/
  position : Nat
  /-- Bytes go to the end. -/
  appending : Bool
  /-- What is kept back. -/
  pending : List UInt8
deriving DecidableEq, Repr

namespace Volume

/-- Opens a file for writing. A file that is not there is made, and one that is there loses its
contents, unless the bytes are to go to its end. -/
def openFile (v : Volume) (path : Path) (appending : Bool) : Except Fault (Volume × Handle) :=
  match v.locate path with
  | .error fault => .error fault
  | .ok (_, some .directory) => .error (.system (.atPath .isDirectory path.toText))
  | .ok (place, none) => .ok (v.put place (.file .empty .disk), ⟨place, 0, appending, []⟩)
  | .ok (place, some (.device _)) => .ok (v, ⟨place, 0, appending, []⟩)
  | .ok (place, some (.file _ medium)) =>
    .ok (if appending then v else v.put place (.file .empty medium), ⟨place, 0, appending, []⟩)

/-- The medium at a place. -/
def medium (v : Volume) (place : Place) : Medium :=
  match v.node? place with
  | some (.file _ medium) | some (.device medium) => medium
  | _ => .disk

/-- Counts an attempt. -/
def tried (v : Volume) : Volume := { v with attempts := v.attempts + 1 }

/-- Puts bytes into a file. -/
def store (v : Volume) (h : Handle) (bytes : List UInt8) : Volume :=
  match v.node? h.place with
  | some (.file contents medium) =>
    let position := if h.appending then contents.size else h.position
    v.put h.place (.file (contents.write position bytes) medium)
  | _ => v

end Volume

namespace Handle

/-- Offers what is kept back to the medium. -/
def flush : Handle × Volume → (Handle × Volume) × Option SystemFault
  | (h, v) =>
    if h.pending.isEmpty then ((h, v), none)
    else
      match (v.medium h.place).onWrite v.attempts with
      | some refusal => ((h, v.tried), some refusal)
      | none =>
        (({ h with position := h.position + h.pending.length, pending := [] },
          (v.store h h.pending).tried), none)

/-- The most bytes that are kept back. -/
def capacity : Nat := 4096

/-- Sends bytes when nothing else is kept back. -/
def writeThrough (bytes : List UInt8) : Handle × Volume → (Handle × Volume) × Option SystemFault
  | (h, v) =>
    match flush ({ h with pending := bytes }, v) with
    | ((h, v), some refusal) =>
      (({ h with pending := if bytes.length ≤ capacity then bytes else [] }, v), some refusal)
    | done => done

/-- Sends bytes. -/
def write (bytes : List UInt8) : Handle × Volume → (Handle × Volume) × Option SystemFault
  | (h, v) =>
    if h.pending.length + bytes.length ≤ capacity then
      flush ({ h with pending := h.pending ++ bytes }, v)
    else
      match flush (h, v) with
      | (s, none) => writeThrough bytes s
      | refused => refused

/-- Closes the file. What is kept back is offered once more, and lost if it is refused. -/
def close : Handle × Volume → Volume × Option SystemFault
  | (h, v) =>
    match flush (h, v) with
    | ((_, v), some refusal) => (v, some refusal)
    | ((h, v), none) => (v.tried, (v.medium h.place).onClose v.attempts)

end Handle

end SemiThue.Files
