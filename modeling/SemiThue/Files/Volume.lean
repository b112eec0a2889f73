/-
Directories and files.

A volume knows which places there are, and what is at each. A path is followed step by step from the
root or from the working directory; every place that is stepped out of must be a directory, and only
the last step may lead to a place where nothing is yet.

What is written to a file goes through a medium, which may refuse any attempt to write, or the
closing. A disk refuses nothing, and neither does the device that takes everything; the device without
room refuses every write. The attempts are counted over the whole volume, so that a medium can refuse
in any pattern.
-/
import SemiThue.Fault
import SemiThue.Files.Contents
import SemiThue.Files.Path
import SemiThue.Text.Utf8

set_option autoImplicit false

namespace SemiThue.Files

/-- A place: the names on the way to it from the root. -/
abbrev Place := List Text

/-- What refuses what is written. -/
structure Medium where
  /-- The refusal that an attempt to write meets. -/
  onWrite : (attempt : Nat) → Option SystemFault
  /-- The refusal that an attempt to close meets. -/
  onClose : (attempt : Nat) → Option SystemFault

/-- A disk refuses nothing. -/
def Medium.disk : Medium := ⟨fun _ => none, fun _ => none⟩

/-- The device without room refuses every write. -/
def Medium.full : Medium := ⟨fun _ => some .noSpace, fun _ => none⟩

/-- What is at a place. -/
inductive Node where
  /-- A directory. -/
  | directory
  /-- A file with its contents. -/
  | file (contents : Contents) (medium : Medium)
  /-- A device, which keeps nothing. -/
  | device (medium : Medium)

/-- Directories and files. -/
structure Volume where
  /-- What is at the places other than the root. -/
  entries : List (Place × Node)
  /-- The working directory. -/
  here : Place
  /-- How often somebody tried to write or to close. -/
  attempts : Nat := 0

namespace Volume

/-- The place of the device without room. -/
def fullPlace : Place := ["dev".toList, "full".toList]

/-- The place of the device that takes everything. -/
def nullPlace : Place := ["dev".toList, "null".toList]

/-- The working directory of a fresh volume. Its own name is unknown: it is one that no step of a path
can spell, so the directory is reached only as the place where a relative path begins. -/
def home : Place := ["tmp".toList, ['/']]

/-- The directories that stand at the root of every system. -/
def usualDirectories : List String :=
  [ "bin", "boot", "dev", "etc", "home", "lib", "media", "mnt", "opt", "proc", "root", "run", "sbin",
    "srv", "sys", "tmp", "usr", "var" ]

/-- A volume with an empty working directory and the two devices. -/
def fresh : Volume where
  entries :=
    (usualDirectories.map fun name => ([name.toList], .directory)) ++
      [(home, .directory), (fullPlace, .device .full), (nullPlace, .device .disk)]
  here := home

/-- What is at a place. -/
def node? (v : Volume) (place : Place) : Option Node :=
  if place = [] then some .directory else (v.entries.find? fun e => e.1 == place).map Prod.snd

/-- Puts something at a place, instead of what was there. -/
def put (v : Volume) (place : Place) (node : Node) : Volume :=
  { v with
    entries :=
      if v.entries.any fun e => e.1 == place then
        v.entries.map fun e => if e.1 == place then (place, node) else e
      else v.entries ++ [(place, node)] }

/-- Makes a directory and those above it. -/
def makeDirectory (v : Volume) (place : Place) : Volume :=
  (List.range place.length).foldl
    (fun v n =>
      match v.node? (place.take (n + 1)) with
      | none => v.put (place.take (n + 1)) .directory
      | some _ => v)
    v

/-- Makes a file and the directories above it. -/
def makeFile (v : Volume) (place : Place) (bytes : List UInt8) : Volume :=
  (v.makeDirectory place.dropLast).put place (.file (.ofList bytes) .disk)

/-! ## Following paths -/

/-- The most bytes that a name may have. -/
def maxNameBytes : Nat := 255

/-- The most bytes that a path may have. -/
def maxPathBytes : Nat := 4095

/-- Where a step leads to. -/
def next (place : Place) (step : Text) : Place :=
  if step = Path.parent then place.dropLast else place ++ [step]

/-- Follows steps from a place. The place reached comes with what is there, if anything is. -/
def follow (v : Volume) (place : Place) : List Text → Except Refusal (Place × Option Node)
  | [] => .ok (place, v.node? place)
  | step :: steps =>
    match v.node? place with
    | some .directory =>
      if maxNameBytes < (Utf8.encode step).length then .error .nameTooLong
      else if steps ≠ [] ∧ (v.node? (next place step)).isNone then .error .missing
      else follow v (next place step) steps
    | some _ => .error .notDirectory
    | none => .error .missing

/-- The place that a path names, with what is there, if anything is. -/
def locate (v : Volume) (path : Path) : Except Fault (Place × Option Node) :=
  if path.toText.contains (Char.ofNat 0) then .error .nullInPath
  else
    let found :=
      if maxPathBytes < (Utf8.encode path.toText).length then .error Refusal.nameTooLong
      else v.follow (if path.slashes = 0 then v.here else []) path.steps
    match found with
    | .ok found => .ok found
    | .error refusal => .error (.system (.atPath refusal path.toText))

/-- The contents of a file. A device has none. -/
def read (v : Volume) (path : Path) : Except Fault (List UInt8) :=
  match v.locate path with
  | .error fault => .error fault
  | .ok (_, some (.file contents _)) => .ok contents.toList
  | .ok (_, some (.device _)) => .ok []
  | .ok (_, some .directory) => .error (.system (.atPath .isDirectory path.toText))
  | .ok (_, none) => .error (.system (.atPath .missing path.toText))

/-- The contents of what is a file. -/
def contents? (v : Volume) (path : Path) : Option (List UInt8) :=
  match v.locate path with
  | .ok (_, some (.file contents _)) => some contents.toList
  | _ => none

end Volume

end SemiThue.Files
