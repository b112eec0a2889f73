/-
The program.

Everything is decided elsewhere; here the arguments, the two files and the clock come in, and what was
decided goes out. The volume that a call works on holds what was found at the two paths that the
arguments name: the bytes of the grammar file, and whether the other file can be opened. The words go
to that file when the run has ended.
-/
import SemiThue.CommandLine.Session

set_option autoImplicit false

open SemiThue SemiThue.Files

/-- What is found at a path. -/
inductive Finding where
  /-- A file. -/
  | file (contents : List UInt8)
  /-- A directory. -/
  | directory
  /-- The way there leads through a file. -/
  | blocked
  /-- Nothing. -/
  | nothing

/-- What an attempt to open a file says about its path. -/
def findingOfError : IO.Error → IO Finding
  | .noFileOrDirectory _ _ _ => pure .nothing
  | .inappropriateType _ code _ =>
    pure (if (code.toNat : Int) = Refusal.isDirectory.code then .directory else .blocked)
  | e => throw e

/-- Reads a file. -/
def findContents (path : Path) : IO Finding := do
  try
    let bytes ← IO.FS.readBinFile path.toString
    pure (.file bytes.toList)
  catch e => findingOfError e

/-- Looks whether a file can be opened, without changing it. -/
def findFile (path : Path) : IO Finding := do
  try
    let _ ← IO.FS.Handle.mk path.toString .readWrite
    pure (.file [])
  catch e => findingOfError e

/-- The place of a path in a volume. -/
def placeIn (v : Volume) (path : Path) : Place :=
  path.steps.foldl Volume.next (if path.slashes = 0 then v.here else [])

/-- Enters a finding into a volume. -/
def enter (v : Volume) (path : Path) (finding : Finding) : Volume :=
  let place := placeIn v path
  match v.node? place, finding with
  | some _, _ => v
  | none, .file contents => v.makeFile place contents
  | none, .directory => v.makeDirectory place
  | none, .blocked => v.makeFile place.dropLast []
  | none, .nothing => v

/-- The directory of a path. -/
def directoryOf (path : Path) : Path := { path with steps := path.steps.dropLast }

/-- The volume for a call. -/
def survey (args : List Text) : IO Volume := do
  let v := Volume.fresh
  match CommandLine.Options.ofArgs args with
  | .error _ => pure v
  | .ok o =>
    let v ←
      match o.grammar with
      | none => pure v
      | some grammar =>
        let path := Path.ofText grammar
        pure (enter v path (← findContents path))
    match o.outputPath with
    | none => pure v
    | some path =>
      let v := enter v (directoryOf path) (← findFile (directoryOf path))
      pure (enter v path (← findFile path))

/-- Shows what is to be seen of a call. -/
def present (s : CommandLine.Screen) : IO Unit := do
  (← IO.getStdout).putStr s.out
  (← IO.getStderr).putStr s.err

/-- Writes the words to their file, as far as it is one. -/
def deliver (o : CommandLine.Options) (v : Volume) : IO Unit :=
  match o.outputPath with
  | none => pure ()
  | some path =>
    match v.contents? path with
    | none => pure ()
    | some contents => IO.FS.writeBinFile path.toString ⟨contents.toArray⟩

/-- Ends a call. -/
def finish (outcome : Except Fault CommandLine.Outcome) : IO UInt32 := do
  match outcome with
  | .ok o =>
    present o.screen
    pure (UInt32.ofNat o.code)
  | .error fault =>
    (← IO.getStderr).putStrLn fault.message
    pure 1

/-- The number of workers on a pool for which none is asked. -/
def usualWorkers : Exploration.Headcount := ⟨8, by decide⟩

/-- A call of the program. -/
def main (arguments : List String) : IO UInt32 := do
  let args := arguments.map String.toList
  let volume ← survey args
  match CommandLine.prepare args volume usualWorkers with
  | .error fault => finish (.error fault)
  | .ok (.ended o) => finish (.ok o)
  | .ok (.ready job) =>
    let began ← IO.monoNanosNow
    let ended ← IO.lazyPure fun _ => job.explore
    let nanoseconds := (← IO.monoNanosNow) - began
    let took := Number.nearestBinary64 ((nanoseconds : Rat) / (1000000000 : Rat))
    deliver job.options ended.heard.volume
    finish (job.conclude (.reading false took) ended)
