/-
No word is lost in silence.

A word that cannot be written takes one of several ways through a call. A sequential run breaks off with the
refusal and hands it on as it is; a pool wraps it, goes on until nothing is outstanding, and reports a failed
exploration; and what was kept back is offered once more when the file is closed, which may be refused again,
whether there was a fault before or not. All these ways end in exit status 1, and none in a fault. The one way
to exit status 0 is that every word was written and the file was closed, and then nothing that comes after
the run can go wrong either: the derivations that are shown are all there.

Who moves when is left open, as everywhere. `Writes` takes any end that a run may come to, and the call as it
is carried out is one case (`Writes.run_eq`).
-/
import SemiThue.Proofs.CommandLine.Ready
import SemiThue.Proofs.Isolation
import SemiThue.Proofs.Pool.Drawn
import SemiThue.Proofs.Sequential.Overheard
import SemiThue.Proofs.Statistics

set_option autoImplicit false

namespace SemiThue

open SemiThue.Derivation (Graph)
open SemiThue.Exploration SemiThue.Files SemiThue.Sink SemiThue.Terminal

/-! ## Runs that take the units in turn -/

namespace Exploration.Explorer

variable {σ : Type} {e : Explorer} {listener : Listener σ} {start : Text} {journal : Journal} {heard : σ}
  {ended : Ended σ}

/-- **The units are taken in turn**, in the order in which they came, if there is a pool that takes them. -/
def TakesTurns (e : Explorer) (listener : Listener σ) (start : Text) (journal : Journal) (heard : σ)
    (ended : Ended σ) : Prop :=
  ∀ crew, e.strategy = .concurrent crew → ∃ p,
    Pool.Leads (e.plan crew listener start) (Pool.initial start (e.openTrail start journal heard)) p ∧
      p.caller = .finished ∧ ended = e.afterPool start p

/-- The run that is carried out is one of these. -/
theorem takesTurns_run (e : Explorer) (listener : Listener σ) (start : Text) (journal : Journal)
    (heard : σ) : e.TakesTurns listener start journal heard (e.run listener start journal heard) := by
  intro crew concurrent
  refine ⟨_, Pool.leads_runFrom (Pool.within_initial _ _), Pool.finished_run _ _, ?_⟩
  simp only [run, concurrent]
  rfl

/-- **One worker calls the listener as the sequential strategy does**, and that strategy does so anyway. -/
theorem Ends.heard_eq_sequential (stays : listener.Stays)
    (run : e.Ends listener start journal heard ended)
    (alone : ∀ crew, e.strategy = .concurrent crew → crew.size = 1)
    (turns : e.TakesTurns listener start journal heard ended) :
    ended.heard = ({ e with strategy := .sequential }.run listener start journal heard).heard := by
  cases strategy : e.strategy with
  | sequential =>
    have same : { e with strategy := .sequential } = e := by rw [← strategy]
    rw [same, e.run_of_sequential start strategy]
    cases run with
    | sequential => rfl
    | concurrent concurrent => cases strategy.symm.trans concurrent
  | concurrent crew =>
    obtain ⟨p, leads, finished, rfl⟩ := turns crew strategy
    have recording : ({ e with strategy := .sequential } : Explorer).recording.isSome =
        e.recording.isSome := rfl
    have same := Pool.silent_openTrail_eq recording start journal journal heard
    rw [({ e with strategy := .sequential } : Explorer).run_of_sequential start rfl, heard_afterSequential,
      e.heard_afterPool]
    change _ = (Sequential.run e.scope listener start _).state.trail.heard
    generalize run : Sequential.run e.scope listener start _ = o
    obtain ⟨silent, -⟩ := leads.tracks stays (alone crew strategy) same finished run
    exact (Trail.silent_eq_iff.1 silent).2.2.2

end Exploration.Explorer

namespace CommandLine

/-! ## Showing derivations -/

/-- **All derivations can be shown** of a graph that was drawn in order. -/
theorem exists_showDerivations {scope : Scope} {start : Text} {g : Graph} (draws : scope.Draws start g)
    (p : Palette) (s : Screen) : ∃ s', showDerivations p g s = .ok s' := by
  have formatted : ∀ word ∈ g.words, ∃ row, g.formatDerivation word = .ok row := by
    intro word mem
    obtain ⟨n, node, rfl⟩ := List.mem_map.1 ((Text.sort_perm _).mem_iff.1 mem)
    obtain ⟨steps, derivation, -⟩ :=
      draws.exists_derivation (Graph.hasNode_of_mem (List.mem_filter.1 node).1)
    exact ⟨_, by rw [Graph.formatDerivation, derivation]; rfl⟩
  unfold showDerivations
  simp only
  split
  · exact ⟨_, rfl⟩
  · -- word by word
    generalize s.print (p.header "DERIVATIONS") = s
    generalize g.words = words at formatted
    induction words generalizing s with
    | nil => exact ⟨s, rfl⟩
    | cons word words ih =>
      obtain ⟨row, shown⟩ := formatted word List.mem_cons_self
      rw [List.foldlM_cons, shown]
      exact ih _ fun w mem => formatted w (List.mem_cons_of_mem _ mem)

/-- **After every run** all derivations can be shown of the graph that it recorded. -/
theorem exists_showDerivations_of_ends {σ : Type} {e : Explorer} {listener : Listener σ} {start : Text}
    {journal : Journal} {heard : σ} {ended : Ended (Heard σ)}
    (run : e.Ends listener.overheard start journal ([], heard) ended) {g : Graph}
    (recording : ended.explorer.recording = some (.graph g)) (p : Palette) (s : Screen) :
    ∃ s', showDerivations p g s = .ok s' := by
  have recorded : e.recording.isSome = true := by
    rw [← run.isSome_recording, recording]
    rfl
  obtain ⟨trail, leaves⟩ := run.exists_leaves
  obtain ⟨g', graph, draws⟩ := leaves.passesUnlocked.exists_draws recorded
  rw [leaves.recording, graph] at recording
  cases recording
  exact exists_showDerivations draws p s

/-! ## The last part of a call -/

/-- The fault with which the work around an open file is left: that of the run, or else that of closing. -/
def faultLeft (h : Handle) (ended : Ended Outlets) : Option Fault :=
  (faultOfRun ended.result).or ((Handle.close (h, ended.heard.volume)).2.map .system)

section Conclude

variable {j : Job} {ended : Ended Outlets} {path : Path} {between count : Nat} {h : Handle}

theorem faultLeft_of_work {fault : Fault} (work : faultOfRun ended.result = some fault) :
    faultLeft h ended = some fault := by rw [faultLeft, work, Option.some_or]

theorem faultLeft_of_closing (work : faultOfRun ended.result = none) :
    faultLeft h ended = (Handle.close (h, ended.heard.volume)).2.map .system := by
  rw [faultLeft, work, Option.none_or]

variable (file : j.file = some (between + 1)) (row : ended.heard.InRow path between count h)
  (took : Clock.Seconds)

include file row

/-- If a refusal by the system is left, the exit status is 1. -/
theorem conclude_of_refusal {refusal : SystemFault} (left : faultLeft h ended = some (.system refusal)) :
    ∃ outcome, j.conclude took ended = .ok outcome ∧ outcome.code = 1 := by
  obtain ⟨-, -, remains⟩ := row.leave (faultOfRun ended.result) {}
  unfold Job.conclude
  simp only [file]
  rw [remains.trans left]
  exact ⟨_, rfl, rfl⟩

/-- If no fault is left, but the run failed, the exit status is 1. -/
theorem conclude_of_failure {fault : Fault} (failed : ended.result = .error fault)
    (left : faultLeft h ended = none) :
    ∃ outcome, j.conclude took ended = .ok outcome ∧ outcome.code = 1 := by
  obtain ⟨-, -, remains⟩ := row.leave (faultOfRun ended.result) {}
  unfold Job.conclude
  simp only [file]
  rw [remains.trans left, failed]
  exact ⟨_, rfl, rfl⟩

/-- If the run has a report, closing is not refused, and the derivations can be shown, the exit status is 0,
and the files are as they were when the file was closed. -/
theorem conclude_of_report {report : Report} (completed : ended.result = .ok report)
    (closed : (Handle.close (h, ended.heard.volume)).2 = none)
    (shown : ∀ g, ended.explorer.recording = some (.graph g) →
      ∀ p s, ∃ s', showDerivations p g s = .ok s') :
    ∃ outcome, j.conclude took ended = .ok outcome ∧ outcome.code = 0 ∧
      outcome.volume = (Handle.close (h, ended.heard.volume)).1 := by
  have work : faultOfRun ended.result = none := by rw [completed]; rfl
  have left : faultLeft h ended = none := by rw [faultLeft_of_closing work, closed, Option.map_none]
  obtain ⟨volume, -, remains⟩ := row.leave (faultOfRun ended.result) {}
  unfold Job.conclude
  simp only [file]
  rw [remains.trans left, completed]
  rw [completed] at volume
  simp only [volume]
  split
  · rename_i g recording
    obtain ⟨s', shown⟩ := shown g recording _ _
    rw [shown]
    exact ⟨_, rfl, rfl, rfl⟩
  · exact ⟨_, rfl, rfl, rfl⟩

end Conclude

/-! ## Calls that write their words to a file -/

/-- **A call that writes its words to a file**, and an end to which its run may come, whoever moves. -/
structure Writes (usual : Headcount) (args : List Text) (v : Volume) (j : Job) (path : Path)
    (ended : Ended (Heard Outlets)) : Prop where
  /-- The grammar was loaded, the file has opened, and the explorer is ready to run. -/
  ready : prepare args v usual = .ok (.ready j)
  /-- The words go to the file that this path names. -/
  output : j.options.outputPath = some path
  /-- The start was given as a text. -/
  start : j.options.supplied = .fitting j.options.start
  /-- The margin was given as a number, or is not needed. -/
  margin : j.options.lacksMargin j.explorer.scope.grammar = false
  /-- The run comes to this end. -/
  run : j.explorer.Ends j.listener.overheard j.options.start {} ([], j.outlets) ended

/-- **Nothing is lost of the words of a run**: the file has them, and so have those who count. -/
structure Kept (path : Path) (found : Option Node) (ended : Ended (Heard Outlets)) (volume : Volume) :
    Prop where
  /-- The file holds the words, one a line. A device holds nothing. -/
  contents : (∀ medium, found ≠ some (.device medium)) →
    volume.contents? path = some (written (wordsOf ended.heard.1))
  /-- This is the text that the file holds. -/
  text : Utf8.decode (written (wordsOf ended.heard.1)) = .ok (Text.listing (wordsOf ended.heard.1))
  /-- Between its line feeds are the words, and behind the last one is nothing. -/
  pieces : (Text.listing (wordsOf ended.heard.1)).cut ['\n'] = wordsOf ended.heard.1 ++ [[]]
  /-- Its lines are the words. -/
  lines : (Text.listing (wordsOf ended.heard.1)).lines = wordsOf ended.heard.1
  /-- The counter has counted them. -/
  counted : ended.heard.2.count = (wordsOf ended.heard.1).length
  /-- The run reports as many. -/
  reported : ∃ report, ended.result = .ok report ∧ report.words = (wordsOf ended.heard.1).length

namespace Writes

variable {usual : Headcount} {args : List Text} {v : Volume} {j : Job} {path : Path}
  {ended : Ended (Heard Outlets)}

/-- The call as it is carried out is one in which the run comes to the end that is computed. -/
theorem run_eq (h : Writes usual args v j path ended) (took : Clock.Seconds) :
    CommandLine.run took args v usual = j.conclude took
      (j.explorer.run j.listener.overheard j.options.start {} ([], j.outlets)).forget := by
  have explore : j.explore = j.explorer.run j.listener j.options.start {} j.outlets := by
    rw [Job.explore, h.start, h.margin]
    rfl
  rw [CommandLine.run, h.ready, ← Explorer.run_forget, ← explore]

/-- The sinks take a word or fail. -/
theorem stays (_h : Writes usual args v j path ended) : j.listener.Stays :=
  fun _ _ _ _ refused => Outlets.isFailure_of_tee refused

/-- **The sinks have delivered what the log says.** -/
theorem exists_delivery (h : Writes usual args v j path ended) : ∃ place found between,
    v.locate path = .ok (place, found) ∧ j.file = some (between + 1) ∧
      Delivery path place found between v.attempts ended.heard.1 ended.heard.2 := by
  obtain ⟨-, -, s, -, -, opened⟩ := prepare_spec h.ready
  obtain ⟨place, found, leads, file, row, leads', attempts⟩ := openOutlets_file opened h.output
  refine ⟨place, found, _, leads, file, ?_⟩
  have sinks : j.outlets.sinks.length = j.options.consoles.length + 2 := by
    obtain ⟨others, length, -, sinks⟩ := row
    rw [sinks, List.length_append, List.length_cons, length, List.length_singleton]
  have listener : j.listener = telling j.options.consoles.length := by
    unfold Job.listener
    rw [sinks]
    rfl
  rw [← attempts]
  exact .of_log row leads' (listener ▸ h.run.log)

/-- No word has a character that ends a line: all its characters are letters. -/
theorem isLineEnd_eq_false (h : Writes usual args v j path ended) :
    ∀ word ∈ wordsOf ended.heard.1, ∀ c ∈ word, Text.isLineEnd c = false := by
  intro word told c mem
  have terminal := h.run.terminal (List.mem_reverse.1 told) mem
  exact Text.isLineEnd_of_isLetter ((lettered_of_prepare h.ready).isLetter terminal)

variable {place : Place} {found : Option Node} {between : Nat}

/-- **If every word was taken** and the files are as they were when the file was closed, nothing is lost. -/
theorem kept (h : Writes usual args v j path ended) (completed : ended.Completed)
    (counted : ended.heard.2.count = ended.heard.1.length) {volume : Volume}
    (leads : volume.locate path = .ok (place, some (.written found (written (wordsOf ended.heard.1))))) :
    Kept path found ended volume := by
  obtain ⟨trail, claims, completes⟩ := h.run.exists_completes completed
  obtain ⟨generations, result⟩ := completes.exists_result
  refine ⟨Volume.contents?_of_locate leads, Utf8.decode_encode _, Text.cut_listing h.isLineEnd_eq_false,
    Text.lines_listing h.isLineEnd_eq_false, ?counted, _, result, ?reported⟩
  case counted => rw [counted, length_wordsOf]
  case reported =>
    rw [length_wordsOf, completes.leaves.length_calls completed.reports]
    rfl

/-- **If every word was taken**, closing decides about the exit status, and if it is 0, nothing is lost. -/
theorem conclude_of_answered (h : Writes usual args v j path ended) (took : Clock.Seconds)
    (file : j.file = some (between + 1))
    (delivery : Delivery path place found between v.attempts ended.heard.1 ended.heard.2)
    (answered : ∀ call ∈ ended.heard.1, call.fault = none) :
    let closing := ended.heard.2.closing (between + 1)
    closing = (Medium.under found).onClose (v.attempts + (wordsOf ended.heard.1).length) ∧
      ∃ outcome, j.conclude took ended.forget = .ok outcome ∧
        (closing = none → outcome.code = 0 ∧ Kept path found ended outcome.volume) ∧
        (closing ≠ none → outcome.code = 1) := by
  intro closing
  obtain ⟨handle, row, holds⟩ := delivery.row
  have row' : ended.forget.heard.InRow path between ended.heard.1.length handle := row
  -- nothing is kept back, so closing is left to the medium
  have close := Handle.close_spec (delivery.leads answered)
  rw [← holds answered, delivery.attempts answered] at close
  have closing_eq : closing = (Medium.under found).onClose (v.attempts + ended.heard.1.length) := by
    rw [show closing = _ from row.closing_eq, close]
  rw [length_wordsOf]
  refine ⟨closing_eq, ?_⟩
  have completed := h.run.completed_iff.2 answered
  obtain ⟨report, result⟩ := completed.reports
  have result' : ended.forget.result = .ok report := result
  have closed : (Handle.close (handle, ended.forget.heard.volume)).2 = closing := row.closing_eq.symm
  cases refused : closing with
  | some refusal =>
    have work : faultOfRun ended.forget.result = none := by
      rw [result']
      rfl
    have left : faultLeft handle ended.forget = some (.system refusal) := by
      rw [faultLeft_of_closing work, closed, refused, Option.map_some]
    obtain ⟨outcome, concluded, code⟩ := conclude_of_refusal file row' took left
    exact ⟨outcome, concluded, nofun, fun _ => code⟩
  | none =>
    obtain ⟨outcome, concluded, code, volume⟩ := conclude_of_report file row' took result'
      (closed.trans refused) fun g recording => exists_showDerivations_of_ends h.run recording
    have leads : outcome.volume.locate path =
        .ok (place, some (.written found (written (wordsOf ended.heard.1)))) := by
      rw [volume, show Handle.close (handle, ended.forget.heard.volume) = _ from close, Volume.locate_tried]
      exact delivery.leads answered
    exact ⟨outcome, concluded, fun _ => ⟨code, h.kept completed row.count_eq leads⟩,
      fun absurdity => absurd rfl absurdity⟩

/-- **If some word was refused**, the exit status is 1. -/
theorem conclude_of_refused (h : Writes usual args v j path ended) (took : Clock.Seconds)
    (file : j.file = some (between + 1))
    (delivery : Delivery path place found between v.attempts ended.heard.1 ended.heard.2)
    (refused : ¬∀ call ∈ ended.heard.1, call.fault = none) :
    ∃ outcome, j.conclude took ended.forget = .ok outcome ∧ outcome.code = 1 := by
  obtain ⟨handle, row, -⟩ := delivery.row
  have row' : ended.forget.heard.InRow path between ended.heard.1.length handle := row
  rw [← h.run.completed_iff] at refused
  cases result : ended.result with
  | ok report => exact absurd (h.run.completed_of_reports h.stays ⟨report, result⟩) refused
  | error fault =>
    have result' : ended.forget.result = .error fault := result
    obtain ⟨call, made, cause, answer, rfl | ⟨unit, rfl⟩⟩ := h.run.exists_call result
    · -- the refusal as it is
      obtain ⟨refusal, rfl⟩ := delivery.refusal call made _ answer
      have work : faultOfRun ended.forget.result = some (.system refusal) := by
        rw [result']
        rfl
      exact conclude_of_refusal file row' took (faultLeft_of_work work)
    · -- the refusal as the pool reports it: only closing can leave a fault
      have work : faultOfRun ended.forget.result = none := by
        rw [result', faultOfRun, Fault.isExploration_atUnit, if_pos rfl]
      have left := faultLeft_of_closing (h := handle) work
      cases closed : (Handle.close (handle, ended.forget.heard.volume)).2 with
      | some refusal =>
        rw [closed, Option.map_some] at left
        exact conclude_of_refusal file row' took left
      | none =>
        rw [closed, Option.map_none] at left
        exact conclude_of_failure file row' took result' left

end Writes

/-- **No word is lost in silence.** Let a call write its words to a file, whatever the grammar, the options,
the strategy, the usual number of workers, and whoever moves, and let the medium of the file refuse any
attempts to write and to close. The call raises no fault, and its exit status is 0 or 1. It is 0 exactly if
every word was taken by the file and closing was not refused, and that is so exactly if the medium takes one
attempt for each word and then the closing. In that case the file holds the words that were told, one a
line, in the order in which they were told, and reading its lines gives the words back; the counter and the
report agree on how many there are. If the run was sequential, or there was one worker that took the units
in turn, this order is that of the sequential run. The call as it is carried out is of this kind, and takes
the units in turn. -/
theorem no_word_is_lost_in_silence {usual : Headcount} {args : List Text} {v : Volume} {j : Job}
    {path : Path} {ended : Ended (Heard Outlets)} (h : Writes usual args v j path ended) (took : Clock.Seconds) :
    let e := j.explorer
    let words := wordsOf ended.heard.1
    ∃ place found sink outcome, v.locate path = .ok (place, found) ∧ j.file = some sink ∧
      j.conclude took ended.forget = .ok outcome ∧
      (outcome.code = 0 ∨ outcome.code = 1) ∧
      (outcome.code = 0 ↔
        (∀ call ∈ ended.heard.1, call.fault = none) ∧ ended.heard.2.closing sink = none) ∧
      (outcome.code = 0 ↔
        (∀ n < words.length, (Medium.under found).onWrite (v.attempts + n) = none) ∧
          (Medium.under found).onClose (v.attempts + words.length) = none) ∧
      (outcome.code = 0 → Kept path found ended outcome.volume) ∧
      (j.options.single = true ∨ j.options.workers = some 1 →
        e.TakesTurns j.listener.overheard j.options.start {} ([], j.outlets) ended →
        words = wordsOf ({ e with strategy := .sequential }.run j.listener.overheard j.options.start {}
          ([], j.outlets)).heard.1) ∧
      (ended = e.run j.listener.overheard j.options.start {} ([], j.outlets) →
        CommandLine.run took args v usual = .ok outcome ∧
          e.TakesTurns j.listener.overheard j.options.start {} ([], j.outlets) ended) := by
  intro e words
  obtain ⟨place, found, between, leads, file, delivery⟩ := h.exists_delivery
  have length : words.length = ended.heard.1.length := length_wordsOf _
  have alone : j.options.single = true ∨ j.options.workers = some 1 →
      ∀ crew, e.strategy = .concurrent crew → crew.size = 1 := by
    rintro (single | one) crew concurrent
    · cases (strategy_of_single h.ready single).symm.trans concurrent
    · exact size_of_workers h.ready one concurrent
  have order (asked : j.options.single = true ∨ j.options.workers = some 1)
      (turns : e.TakesTurns j.listener.overheard j.options.start {} ([], j.outlets) ended) :
      words = wordsOf ({ e with strategy := .sequential }.run j.listener.overheard j.options.start {}
        ([], j.outlets)).heard.1 := by
    rw [← h.run.heard_eq_sequential h.stays.overheard (alone asked) turns]
  have carried_out {outcome : Outcome} (concluded : j.conclude took ended.forget = .ok outcome)
      (computed : ended = e.run j.listener.overheard j.options.start {} ([], j.outlets)) :
      CommandLine.run took args v usual = .ok outcome ∧
        e.TakesTurns j.listener.overheard j.options.start {} ([], j.outlets) ended := by
    refine ⟨?_, computed ▸ e.takesTurns_run _ _ _ _⟩
    rw [h.run_eq, ← concluded, computed]
  by_cases answered : ∀ call ∈ ended.heard.1, call.fault = none
  · obtain ⟨closing, outcome, concluded, well, ill⟩ := h.conclude_of_answered took file delivery answered
    have status : outcome.code = 0 ↔ ended.heard.2.closing (between + 1) = none := by
      by_cases closed : ended.heard.2.closing (between + 1) = none
      · exact iff_of_true (well closed).1 closed
      · exact iff_of_false (by rw [ill closed]; decide) closed
    refine ⟨place, found, _, outcome, leads, file, concluded, ?_, ?_, ?_, ?_, order,
      carried_out concluded⟩
    · by_cases closed : ended.heard.2.closing (between + 1) = none
      · exact .inl (well closed).1
      · exact .inr (ill closed)
    · rw [status]
      exact (and_iff_right answered).symm
    · rw [status, closing, length]
      exact (and_iff_right (delivery.answered_iff.1 answered)).symm
    · exact fun code => (well (status.1 code)).2
  · obtain ⟨outcome, concluded, code⟩ := h.conclude_of_refused took file delivery answered
    have failed : outcome.code ≠ 0 := by rw [code]; decide
    refine ⟨place, found, _, outcome, leads, file, concluded, .inr code, ?_, ?_, ?_, order,
      carried_out concluded⟩
    · exact iff_of_false failed fun all => answered all.1
    · rw [length]
      exact iff_of_false failed fun all => answered (delivery.answered_iff.2 all.1)
    · exact fun zero => absurd zero failed

namespace Pair

/-- A file with a grammar that produces `a` and `aa`, and an empty file on a given medium. -/
def volume (medium : Medium) : Volume :=
  let file (name : Char) : Place := Volume.home ++ [[name]]
  (Volume.fresh.makeFile (file 'g') (Utf8.encode "n = 2\nL = {a}\nS -> A | B\nB -> aa\nA -> a\n".toList)).put
    (file 'w') (.file .empty medium)

/-- Two workers are to write the words of that grammar to that file. -/
def args : List Text := ["--workers", "2", "--output-file", "w", "g"].map String.toList

/-- One worker is through with `S`. Then two begin, and the one on `B` is the first to tell its word. -/
def moves : List Move :=
  let goesOn (i n : Nat) : List Move := List.replicate n (.work i)
  [[.caller, .caller, .begin 0], goesOn 0 28, [.begin 0, .begin 0], goesOn 1 21, goesOn 0 21,
    [.caller, .caller]].flatten

/-- The pool after these moves. -/
def pool (j : Job) : Pool (Heard Outlets) :=
  Pool.after (j.explorer.plan (.ofSucc 1 true) j.listener.overheard j.options.start)
    (j.explorer.openTrail j.options.start {} ([], j.outlets)) moves

/-- Where the caller stands then, and the words that were told, if the call gets ready on a given medium. -/
def seen (medium : Medium) : Option (Caller × List Text) :=
  match prepare args (volume medium) .one with
  | .ok (.ready j) => some ((pool j).caller, wordsOf (pool j).shared.trail.heard.1)
  | _ => none

/-- Whatever the medium, the call gets ready, and its explorer has a pool of two workers. -/
theorem exists_ready (medium : Medium) : ∃ j, prepare args (volume medium) .one = .ok (.ready j) ∧
    j.explorer.strategy = .concurrent (.ofSucc 1 true) ∧
    ∀ ended, j.explorer.Ends j.listener.overheard j.options.start {} ([], j.outlets) ended →
      Writes .one args (volume medium) j (.ofText ['w']) ended :=
  ⟨_, rfl, rfl, fun _ run => ⟨rfl, rfl, rfl, rfl, run⟩⟩

end Pair

/-- Two workers tell `aa` before `a`, and on a disk the file has the words in this order. If the medium
refuses the second word, the exit status is 1, and so it is if the medium takes the words and refuses to
close. -/
theorem no_word_is_lost_in_silence_pair :
    let worn : Medium := ⟨fun attempt => if attempt = 1 then some .noSpace else none, fun _ => none⟩
    let sealed : Medium := ⟨fun _ => none, fun _ => some .noSpace⟩
    (∃ j outcome, prepare Pair.args (Pair.volume .disk) .one = .ok (.ready j) ∧
        j.conclude .zero (j.explorer.afterPool j.options.start (Pair.pool j)).forget = .ok outcome ∧
        outcome.code = 0 ∧
        outcome.volume.contents? (.ofText ['w']) = some (Utf8.encode "aa\na\n".toList)) ∧
      (∃ j outcome, prepare Pair.args (Pair.volume worn) .one = .ok (.ready j) ∧
        j.conclude .zero (j.explorer.afterPool j.options.start (Pair.pool j)).forget = .ok outcome ∧
        outcome.code = 1) ∧
      ∃ outcome, run .zero Pair.args (Pair.volume sealed) = .ok outcome ∧ outcome.code = 1 := by
  intro worn sealed
  have leads (medium : Medium) : (Pair.volume medium).locate (.ofText ['w']) =
      .ok (Volume.home ++ [['w']], some (.file .empty medium)) := rfl
  refine ⟨?disk, ?worn, ?sealed⟩
  case disk =>
    have seen : Pair.seen .disk = some (.finished, [['a', 'a'], ['a']]) := by decide +kernel
    obtain ⟨j, ready, strategy, writes⟩ := Pair.exists_ready .disk
    simp only [Pair.seen, ready, Option.some.injEq, Prod.mk.injEq] at seen
    obtain ⟨finished, words⟩ := seen
    have ends := writes _ (.concurrent strategy (Pool.reachable_after _ _ _) finished)
    obtain ⟨place, found, sink, outcome, found_eq, -, concluded, -, -, code, kept, -⟩ :=
      no_word_is_lost_in_silence ends .zero
    cases (leads .disk).symm.trans found_eq
    have zero : outcome.code = 0 := code.2 ⟨fun _ _ => rfl, rfl⟩
    refine ⟨j, outcome, ready, concluded, zero, ?_⟩
    rw [(kept zero).contents nofun, j.explorer.heard_afterPool]
    exact congrArg (fun words => some (written words)) words
  case worn =>
    have seen : Pair.seen worn = some (.finished, [['a', 'a'], ['a']]) := by decide +kernel
    obtain ⟨j, ready, strategy, writes⟩ := Pair.exists_ready worn
    simp only [Pair.seen, ready, Option.some.injEq, Prod.mk.injEq] at seen
    obtain ⟨finished, words⟩ := seen
    have ends := writes _ (.concurrent strategy (Pool.reachable_after _ _ _) finished)
    obtain ⟨place, found, sink, outcome, found_eq, -, concluded, status, -, code, -⟩ :=
      no_word_is_lost_in_silence ends .zero
    cases (leads worn).symm.trans found_eq
    refine ⟨j, outcome, ready, concluded, status.resolve_left fun zero => ?_⟩
    have second : 1 < (wordsOf (j.explorer.afterPool j.options.start (Pair.pool j)).heard.1).length := by
      rw [j.explorer.heard_afterPool, words]
      decide
    cases (code.1 zero).1 1 second
  case sealed =>
    obtain ⟨j, ready, -, writes⟩ := Pair.exists_ready sealed
    have ends := writes _ (j.explorer.ends_run _ _ _ _)
    obtain ⟨place, found, sink, outcome, found_eq, -, -, status, -, code, -, -, carried_out⟩ :=
      no_word_is_lost_in_silence ends .zero
    cases (leads sealed).symm.trans found_eq
    refine ⟨outcome, (carried_out rfl).1, status.resolve_left fun zero => ?_⟩
    cases (code.1 zero).2

end CommandLine

end SemiThue
