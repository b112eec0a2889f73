/-
One call of the program, from its arguments to what is seen and left behind.

A call has three parts. First the arguments are read, the grammar is loaded and the sinks are made
ready; much can go wrong here, and then the call has ended. Then the explorer runs. Last, the sinks
are put away and the results are shown. The parts are separate because the middle one takes time and
can be carried out in different ways, and the last one is told how it went.

A call succeeds only if the words that it was to write to a file have all been written and the file
has been closed.

An option can be left without a value. This is noticed only where the value is needed: the number of
workers at once, the start when the run begins, and the margin when the first result of a rule is to be
judged that differs from the text before.
-/
import SemiThue.CommandLine.Arguments
import SemiThue.CommandLine.Help
import SemiThue.Derivation.Basic
import SemiThue.Exploration.Explorer
import SemiThue.Grammar.Source.File
import SemiThue.Sink.Outlets
import SemiThue.Terminal.Palette
import SemiThue.Terminal.Progress

set_option autoImplicit false

namespace SemiThue.CommandLine

open SemiThue.Exploration SemiThue.Files SemiThue.Grammar.Source SemiThue.Sink SemiThue.Terminal

/-- What is seen of a call. -/
structure Screen where
  /-- The results. -/
  out : String := ""
  /-- The complaints and the journal. -/
  err : String := ""
deriving DecidableEq, Repr

namespace Screen

/-- Shows a line among the results. -/
def print (s : Screen) (line : String) : Screen := { s with out := s.out ++ line ++ "\n" }

/-- Shows a text among the results. -/
def draw (s : Screen) (t : Text) : Screen := { s with out := s.out ++ t.toString }

/-- Shows a line among the complaints. -/
def complain (s : Screen) (line : String) : Screen := { s with err := s.err ++ line ++ "\n" }

/-- Shows lines among the complaints. -/
def complainAll (s : Screen) (lines : List String) : Screen := lines.foldl complain s

end Screen

/-- What a call comes to. -/
structure Outcome where
  /-- The exit status: 0 after success, 1 after failure, 2 after misuse. -/
  code : Nat
  /-- What is seen. -/
  screen : Screen
  /-- The files afterwards. -/
  volume : Volume

/-- A call whose explorer is ready to run. -/
structure Job where
  /-- What was asked for. -/
  options : Options
  /-- What was seen so far. -/
  screen : Screen
  /-- The explorer. -/
  explorer : Explorer
  /-- The line at the bottom of the terminal, as it was drawn first. -/
  progress : Progress
  /-- The sinks, the file sink being open. -/
  outlets : Outlets
  /-- The place of the file sink, if there is one. -/
  file : Option Nat

/-- A call after its first part. -/
inductive Prepared where
  /-- It has ended. -/
  | ended (o : Outcome)
  /-- The explorer is ready to run. -/
  | ready (j : Job)

namespace Options

/-- The colours in use. -/
def palette (o : Options) : Palette := if o.color then .colored else .plain

/-- The least level of the lines of the journal that are shown. -/
def level (o : Options) : Level := if o.debug then .debug else if o.verbose then .info else .warning

/-- The strategy of the run. -/
def strategy (o : Options) (usual : Headcount) : Except Fault Strategy :=
  if o.single then .ok .sequential else (Crew.make o.workers o.atomic usual).map .concurrent

/-- The explorer for a grammar. -/
def explorer (o : Options) (g : Grammar) (usual : Headcount) : Except Fault Explorer :=
  (o.strategy usual).map fun strategy =>
    { scope := ⟨g, o.margin⟩, strategy, recording := if o.derivations then some .empty else none }

/-- What a run starts from. A start without a value is an empty row. -/
def supplied (o : Options) : Supplied Text :=
  if o.lost.contains .start then .foreign (.row []) else .fitting o.start

/-- The margin has no value and a rule needs it: one that changes the start. -/
def lacksMargin (o : Options) (g : Grammar) : Bool :=
  o.lost.contains .margin && g.rules.any fun r => r.rewrite o.start != o.start

/-- The line at the bottom of the terminal, drawn for the first time if it is wanted. -/
def progress (o : Options) : Progress :=
  let p : Progress := { style := o.palette.dimStyle }
  if o.verbose then p.start else p

/-- The console sink. -/
def console (o : Options) : Console where
  statuses := if o.verbose then some [Progress.opening] else none
  style := o.palette.dimStyle

/-- The sinks other than the file sink. -/
def sinks (o : Options) : List Outlet :=
  .counter 0 :: if o.display then [.console o.console] else []

/-- The path of the file that words are written to as well. -/
def outputPath (o : Options) : Option Path :=
  (o.outputFile.filter fun t => !t.isEmpty).map Path.ofText

end Options

/-! ## Before the run -/

/-- The grammar as it is shown before a run. -/
def showGrammar (p : Palette) (path : Text) (g : Grammar) (s : Screen) : Screen :=
  let rules := g.rules.map fun r => s!"    {r.display}"
  ([ p.header s!"GRAMMAR: {path.toString}", s!"  n = {g.bound}", s!"  L = \x7b{g.alphabet}\x7d", "",
     s!"  {p.bold}Rules:{p.reset}" ] ++ rules ++ [""]).foldl Screen.print s

/-- Makes the sinks ready. -/
def openOutlets (o : Options) (s : Screen) (e : Explorer) (v : Volume) : Except Fault Prepared :=
  let job : Job :=
    { options := o, screen := s, explorer := e, progress := o.progress
      outlets := ⟨o.sinks, v⟩, file := none }
  match o.outputPath with
  | none => .ok (.ready job)
  | some path =>
    let place := o.sinks.length
    match Outlets.openFile place ⟨o.sinks ++ [.file ⟨path, false, none⟩], v⟩ with
    | (outlets, none) => .ok (.ready { job with outlets, file := some place })
    | (_, some (.system e)) =>
      .ok (.ended ⟨1, s.complain (o.palette.bad s!"Cannot open output file: {e.message}"), v⟩)
    | (_, some fault) => .error fault

/-- Goes on with a grammar that was loaded. -/
def withGrammar (o : Options) (path : Text) (loaded : Loaded) (v : Volume) (usual : Headcount) :
    Except Fault Prepared :=
  let s := ({} : Screen).complainAll (loaded.journal.lines o.level)
  let s := if o.verbose then showGrammar o.palette path loaded.grammar s else s
  match o.explorer loaded.grammar usual with
  | .ok e => openOutlets o s e v
  | .error fault => .error fault

/-- Loads the grammar. -/
def load (o : Options) (path : Text) (v : Volume) (usual : Headcount) : Except Fault Prepared :=
  let failed (message : String) : Except Fault Prepared :=
    .ok (.ended ⟨1, ({} : Screen).complain (o.palette.bad message), v⟩)
  match Loaded.ofFile v (Path.ofText path) with
  | .ok loaded => withGrammar o path loaded v usual
  | .error (.system e) =>
    if e.code = some Refusal.missing.code then
      failed s!"Grammar file does not exist: {path.toString}"
    else failed s!"Cannot read grammar file: {e.message}"
  | .error (.flawed f) => failed s!"Cannot read grammar file: {f.message}"
  | .error fault => .error fault

/-- **The first part of a call**, on a machine on which pools usually have so many workers. -/
def prepare (args : List Text) (v : Volume) (usual : Headcount) : Except Fault Prepared :=
  match Options.ofArgs args with
  | .error .help => .ok (.ended ⟨0, { out := help }, v⟩)
  | .error (.misuse m) =>
    .ok (.ended ⟨2, { err := usage ++ s!"langproc: error: {m.message}\n" }, v⟩)
  | .ok o =>
    match o.grammar.filter fun t => !t.isEmpty with
    | none => .ok (.ended ⟨2, { out := help }, v⟩)
    | some path =>
      if o.lost.contains .workers then .error .workersLost
      else if o.workers.any fun n => n ≤ 0 then
        .ok (.ended ⟨2, ({} : Screen).complain (o.palette.bad "--workers must be positive"), v⟩)
      else load o path v usual

/-! ## The run -/

namespace Job

/-- Who is told the words: all sinks in turn. -/
def listener (j : Job) : Listener Outlets :=
  fun _ word => Outlets.tee (List.range j.outlets.sinks.length) word

/-- Runs the explorer. -/
def explore (j : Job) : Ended Outlets :=
  match j.options.supplied with
  | .fitting start =>
    if j.options.lacksMargin j.explorer.scope.grammar then
      j.explorer.breakOff start .marginLost {} j.outlets
    else j.explorer.run j.listener start {} j.outlets
  | start => j.explorer.runSupplied j.listener start {} j.outlets

end Job

/-! ## After the run -/

/-- The derivations as they are shown after a run. -/
def showDerivations (p : Palette) (g : Derivation.Graph) (s : Screen) : Except Fault Screen :=
  let s := s.print (p.header "DERIVATIONS")
  if g.words.isEmpty then .ok (s.print (p.warning "No words derived"))
  else
    g.words.foldlM
      (fun s word => do
        let row ← g.formatDerivation word
        pure (s.print s!"  {p.cyan}{word.toString}{p.reset}: {row}"))
      s

/-- The results of a run that ended well. -/
def showReport (o : Options) (report : Report) (found : Nat) (took : Clock.Seconds) (s : Screen) :
    Screen :=
  let p := o.palette
  if o.verbose then
    [ "", p.good s!"Processing done, took {took.clock}.", p.good s!"Found {found} entries.",
      p.dim (report.summary took.decimal) ].foldl Screen.print s
  else if o.time then s.print s!"Processing took {took.clock}."
  else s

/-- What is seen when the run has ended: what the sinks showed between the first drawing of the line
at the bottom and its blanking, the journal, and the failure, if a pool reports one. -/
def Job.screenAfter (j : Job) (ended : Ended Outlets) : Screen :=
  let s := (j.screen.draw j.progress.written.toText).draw ended.heard.shown
  let s := s.draw ({ j.progress with written := {} } : Progress).stop.written.toText
  let s := s.complainAll (ended.journal.lines j.options.level)
  match ended.result with
  | .error fault =>
    if fault.isExploration then s.complain (j.options.palette.bad fault.message) else s
  | .ok _ => s

/-- The fault with which the run leaves the work around which the file was open. The failure of a pool
was reported already. -/
def faultOfRun (result : Except Fault Report) : Option Fault :=
  match result with
  | .error fault => if fault.isExploration then none else some fault
  | .ok _ => none

/-- **The last part of a call.** -/
def Job.conclude (j : Job) (took : Clock.Seconds) (ended : Ended Outlets) : Except Fault Outcome :=
  let s := j.screenAfter ended
  let work := faultOfRun ended.result
  let ((outlets, journal), fault) :=
    match j.file with
    | none => ((ended.heard, ({} : Journal)), work)
    | some place => ended.heard.leave place work {}
  let s := s.complainAll (journal.lines j.options.level)
  match fault with
  | some (.system e) =>
    .ok ⟨1, s.complain (j.options.palette.bad s!"Cannot write output: {e.message}"), outlets.volume⟩
  | some fault => .error fault
  | none =>
    match ended.result with
    | .error _ => .ok ⟨1, s, outlets.volume⟩
    | .ok report => do
      let s := showReport j.options report outlets.count took s
      let s ←
        match ended.explorer.recording with
        | some (.graph g) => showDerivations j.options.palette g s
        | _ => .ok s
      pure ⟨0, s, outlets.volume⟩

/-- **A call of the program** that takes a given time. -/
def run (took : Clock.Seconds) (args : List Text) (v : Volume) (usual : Headcount := .one) :
    Except Fault Outcome :=
  match prepare args v usual with
  | .error fault => .error fault
  | .ok (.ended o) => .ok o
  | .ok (.ready j) => j.conclude took j.explore

end SemiThue.CommandLine
