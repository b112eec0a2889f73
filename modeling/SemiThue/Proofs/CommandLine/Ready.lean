/-
Calls that have got ready.

The first part of a call has many ways to end it. Here is what is known when it has not: the grammar was read
from a file, the explorer follows the options, and if words go to a file that has opened, with nothing in it,
as the last one in the row of sinks.
-/
import SemiThue.CommandLine.Session
import SemiThue.Proofs.Grammar.Letters
import SemiThue.Proofs.Sink.Delivery

set_option autoImplicit false

namespace SemiThue.CommandLine

open SemiThue.Exploration SemiThue.Files SemiThue.Grammar.Source SemiThue.Sink SemiThue.Terminal

variable {usual : Headcount} {args : List Text} {v : Volume} {o : Options} {s : Screen} {e : Explorer} {j : Job}

/-! ## The sinks -/

/-- Between the counter and the file there may be the console. -/
def Options.consoles (o : Options) : List Outlet := if o.display then [.console o.console] else []

/-- The sinks are made ready for the explorer and the options at hand. -/
theorem openOutlets_spec (ready : openOutlets o s e v = .ok (.ready j)) :
    j.options = o ∧ j.explorer = e := by
  unfold openOutlets at ready
  split at ready
  · cases ready
    exact ⟨rfl, rfl⟩
  · simp only at ready
    split at ready
    · cases ready
      exact ⟨rfl, rfl⟩
    · cases ready
    · cases ready

/-- **If words go to a file, that has opened**: its path leads to it, nothing was written to it yet, and it
is the last one in the row of sinks. -/
theorem openOutlets_file (ready : openOutlets o s e v = .ok (.ready j)) {path : Path}
    (output : o.outputPath = some path) :
    ∃ place found, v.locate path = .ok (place, found) ∧ j.file = some (o.consoles.length + 1) ∧
      j.outlets.InRow path o.consoles.length 0 ⟨place, 0, false, []⟩ ∧
      j.outlets.volume.locate path = .ok (place, some (.written found [])) ∧
      j.outlets.volume.attempts = v.attempts := by
  have others : ∀ s ∈ o.consoles, s.Harmless := by
    unfold Options.consoles
    split
    · intro s mem
      rw [List.mem_singleton.1 mem]
      nofun
    · nofun
  have sinks : o.sinks = .counter 0 :: o.consoles := rfl
  unfold openOutlets at ready
  simp only [output] at ready
  rw [Outlets.openFile, Outlets.onSink_append, sinks] at ready
  unfold File.openFile at ready
  simp only at ready
  cases opens : v.openFile path false with
  | error fault =>
    rw [opens] at ready
    cases fault <;> cases ready
  | ok opened =>
    obtain ⟨v', h⟩ := opened
    rw [opens] at ready
    cases ready
    obtain ⟨place, found, leads, rfl, leads', attempts⟩ := Volume.openFile_spec opens
    exact ⟨place, found, leads, rfl, ⟨o.consoles, rfl, others, rfl⟩, leads', attempts⟩

/-! ## The whole first part -/

/-- **A call that has got ready** has read its grammar from a file, and its explorer follows the options. -/
theorem prepare_spec (ready : prepare args v usual = .ok (.ready j)) :
    ∃ (path : Path) (loaded : Loaded) (s : Screen), Loaded.ofFile v path = .ok loaded ∧
      j.options.explorer loaded.grammar usual = .ok j.explorer ∧
      openOutlets j.options s j.explorer v = .ok (.ready j) := by
  unfold prepare at ready
  split at ready
  · cases ready
  · cases ready
  · rename_i o _
    split at ready
    · cases ready
    · rename_i path _
      split at ready
      · cases ready
      · split at ready
        · cases ready
        · unfold load at ready
          simp only at ready
          split at ready
          · rename_i loaded read
            unfold withGrammar at ready
            simp only at ready
            split at ready
            · rename_i e made
              obtain ⟨rfl, rfl⟩ := openOutlets_spec ready
              exact ⟨_, loaded, _, read, made, ready⟩
            · cases ready
          · split at ready <;> cases ready
          · cases ready
          · cases ready

/-- The explorer is the one for the grammar. -/
theorem explorer_spec {g : Grammar} (made : o.explorer g usual = .ok e) :
    e.scope.grammar = g ∧ o.strategy usual = .ok e.strategy := by
  unfold Options.explorer at made
  cases strategy : o.strategy usual with
  | error fault =>
    rw [strategy] at made
    cases made
  | ok strategy =>
    rw [strategy] at made
    cases made
    exact ⟨rfl, rfl⟩

/-- **All terminals are letters** when a call has got ready. -/
theorem lettered_of_prepare (ready : prepare args v usual = .ok (.ready j)) :
    Lettered j.explorer.scope.grammar.terminals := by
  obtain ⟨path, loaded, s, read, made, -⟩ := prepare_spec ready
  rw [(explorer_spec made).1]
  exact Loaded.lettered read

/-- With `--single` the strategy is the sequential one. -/
theorem strategy_of_single (ready : prepare args v usual = .ok (.ready j)) (single : j.options.single = true) :
    j.explorer.strategy = .sequential := by
  obtain ⟨path, loaded, s, -, made, -⟩ := prepare_spec ready
  have strategy := (explorer_spec made).2
  rw [Options.strategy, if_pos single] at strategy
  exact (Except.ok.inj strategy).symm

/-- With `--workers 1` a pool has one worker. -/
theorem size_of_workers (ready : prepare args v usual = .ok (.ready j)) (one : j.options.workers = some 1)
    {crew : Crew} (concurrent : j.explorer.strategy = .concurrent crew) : crew.size = 1 := by
  obtain ⟨path, loaded, s, -, made, -⟩ := prepare_spec ready
  have strategy := (explorer_spec made).2
  rw [Options.strategy, concurrent, one] at strategy
  split at strategy
  · cases strategy
  · cases strategy
    rfl

end SemiThue.CommandLine
