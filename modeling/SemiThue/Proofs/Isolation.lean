/-
Runs of one explorer, one after the other.

An explorer lives longer than its runs. The count of outstanding texts stays where an aborted sequential run
left it, the failure of a run on a pool is kept until the next one, and so is the recording, which may even
be shared with other explorers. `History` says what may have happened to an explorer since it was made: runs
that were completed or broke off at whatever word, runs from something that is no text, refused or taken up,
failures noted in between, and another explorer's use of the same recording.

All that such a history changes is what a run puts back when it begins. What it cannot change is said by
`Alike`: the scope, the strategy, and whether there is a recording. From these alone a run takes its plan
and its first trail, and so the whole run with its calls, its moments and its end. There is one exception,
the run on a pool that is refused because its start is no text: it is refused before anything is put back,
and therefore leaves everything as it was.
-/
import SemiThue.Proofs.Moments
import SemiThue.Proofs.Pool.Charted

set_option autoImplicit false

namespace SemiThue.Exploration

variable {σ : Type}

namespace Explorer

/-- The explorer that was just made, with an empty recording if it is to keep one. -/
def fresh (scope : Scope) (strategy : Strategy) (recorded : Bool) : Explorer where
  scope := scope
  strategy := strategy
  recording := if recorded then some .empty else none

/-! ## Histories -/

/-- **What may have become of an explorer** since it was made. -/
inductive History (scope : Scope) (strategy : Strategy) (recorded : Bool) : Explorer → Prop where
  /-- Nothing happened yet. -/
  | made : History scope strategy recorded (fresh scope strategy recorded)
  /-- There was a run from a text, with any listener. It was completed, or it broke off at some word. -/
  | ran {e : Explorer} {τ : Type} {listener : Listener τ} {start : Text} {journal : Journal} {heard : τ}
      {ended : Ended τ} : History scope strategy recorded e →
      e.Ends listener start journal heard ended → History scope strategy recorded ended.explorer
  /-- There was a run from something that is no text, and it was refused or taken up. -/
  | strayed {e : Explorer} {τ : Type} {listener : Listener τ} {start : Foreign} {journal : Journal}
      {heard : τ} : History scope strategy recorded e →
      History scope strategy recorded (e.runSupplied listener (.foreign start) journal heard).explorer
  /-- A failure was noted. Only an explorer with a pool takes note of failures. -/
  | noted {e : Explorer} {crew : Crew} {unit : Text} {fault : Fault} {journal : Journal} :
      History scope strategy recorded e → strategy = .concurrent crew →
      History scope strategy recorded (e.noteFailure unit fault journal).1
  /-- Somebody else used the recording. -/
  | shared {e : Explorer} (r : Derivation.Recording) : History scope strategy recorded e →
      History scope strategy recorded { e with recording := e.recording.map fun _ => r }

/-! ## What no history changes -/

/-- **Explorers that differ only in what a run puts back.** -/
structure Alike (e e' : Explorer) : Prop where
  /-- They explore the same. -/
  scope : e.scope = e'.scope
  /-- They do it in the same way. -/
  strategy : e.strategy = e'.strategy
  /-- Both keep a recording, or neither does. -/
  recording : e.recording.isSome = e'.recording.isSome
  /-- They kept the same failure, unless a run would forget it. -/
  failure : e.strategy = .sequential → e.failure = e'.failure

variable {e e' : Explorer} {listener : Listener σ} {start : Text} {journal : Journal} {heard : σ}

/-- A run keeps a recording exactly if there was one before. -/
theorem Ends.isSome_recording {ended : Ended σ} (run : e.Ends listener start journal heard ended) :
    ended.explorer.recording.isSome = e.recording.isSome := by
  obtain ⟨trail, leaves⟩ := run.exists_leaves
  obtain ⟨crew, p, reachable, silent⟩ := leaves.passes.exists_pool
  obtain ⟨-, -, graph, -⟩ := Trail.silent_eq_iff.1 silent
  rw [leaves.recording, Option.isSome_map, ← graph, reachable.isSome_graph, openTrail, Option.isSome_map]

/-- The sequential strategy takes up whatever it is given. -/
theorem runSupplied_of_sequential (sequential : e.strategy = .sequential) (stray : Foreign) :
    e.runSupplied listener (.foreign stray) journal heard = e.runStray stray journal heard := by
  simp only [runSupplied, sequential]

/-- A pool is given checked units only. If the first one cannot be made, the run leaves everything as it
was. -/
theorem runSupplied_of_concurrent {crew : Crew} (concurrent : e.strategy = .concurrent crew)
    {supplied : Supplied Text} {refusal : Fault} (refused : rootItem supplied = .error refusal) :
    e.runSupplied listener supplied journal heard = ⟨e, journal, heard, .error refusal⟩ := by
  simp only [runSupplied, concurrent, refused]

/-- **No unit is made of what is no text.** If it could be kept in a set, the fault says that it is none. -/
theorem exists_refusal (stray : Foreign) : ∃ refusal, rootItem (.foreign stray) = .error refusal ∧
    (stray.keyable = true → refusal = textless stray) := by
  cases keyable : stray.keyable with
  | true =>
    refine ⟨textless stray, ?_, fun _ => rfl⟩
    simp only [rootItem, visitedAt, if_pos keyable]
    rfl
  | false =>
    refine ⟨.unkeyable stray.kind, ?_, nofun⟩
    simp only [rootItem, visitedAt, keyable]
    rfl

namespace Alike

theorem refl (e : Explorer) : e.Alike e := ⟨rfl, rfl, rfl, fun _ => rfl⟩

theorem symm (alike : e.Alike e') : e'.Alike e :=
  ⟨alike.scope.symm, alike.strategy.symm, alike.recording.symm,
    fun sequential => (alike.failure (alike.strategy.trans sequential)).symm⟩

/-- With a pool it is no matter which failure was kept. -/
theorem of_concurrent {crew : Crew} (concurrent : e.strategy = .concurrent crew) (scope : e.scope = e'.scope)
    (strategy : e.strategy = e'.strategy) (recording : e.recording.isSome = e'.recording.isSome) :
    e.Alike e' := by
  refine ⟨scope, strategy, recording, fun sequential => ?_⟩
  rw [concurrent] at sequential
  cases sequential

/-- A run changes nothing but what is put back, however it ends. -/
theorem of_ends {ended : Ended σ} (alike : e.Alike e') (run : e.Ends listener start journal heard ended) :
    ended.explorer.Alike e' := by
  have recording := run.isSome_recording.trans alike.recording
  cases run with
  | sequential strategy =>
    rw [afterSequential, explorer_close] at recording ⊢
    exact ⟨alike.scope, alike.strategy, recording, alike.failure⟩
  | concurrent strategy =>
    rw [afterPool, explorer_close] at recording ⊢
    exact .of_concurrent strategy alike.scope alike.strategy recording

/-- The same goes for a run that takes up something that is no text. -/
theorem of_runStray (alike : e.Alike e') (sequential : e.strategy = .sequential) (stray : Foreign) :
    (e.runStray stray journal heard).explorer.Alike e' := by
  have recording : (e.recording.map fun _ => Derivation.Recording.stray stray).isSome =
      e'.recording.isSome := by rw [Option.isSome_map, alike.recording]
  have failure (_ : e.strategy = .sequential) := alike.failure sequential
  unfold runStray
  simp only
  split
  · split
    · exact ⟨alike.scope, alike.strategy, recording, failure⟩
    · exact ⟨alike.scope, alike.strategy, recording, failure⟩
  · exact ⟨alike.scope, alike.strategy, recording, failure⟩

/-- A run that is refused changes nothing at all. -/
theorem of_runSupplied_foreign (alike : e.Alike e') (stray : Foreign) :
    (e.runSupplied listener (.foreign stray) journal heard).explorer.Alike e' := by
  cases strategy : e.strategy with
  | sequential =>
    rw [runSupplied_of_sequential strategy]
    exact alike.of_runStray strategy stray
  | concurrent crew =>
    obtain ⟨refusal, refused, -⟩ := exists_refusal stray
    rw [runSupplied_of_concurrent strategy refused]
    exact alike

/-- To note a failure changes nothing but what a run on a pool puts back. -/
theorem of_noteFailure {crew : Crew} (concurrent : e.strategy = .concurrent crew) (alike : e.Alike e')
    (unit : Text) (fault : Fault) (journal : Journal) :
    (e.noteFailure unit fault journal).1.Alike e' :=
  .of_concurrent concurrent alike.scope alike.strategy alike.recording

end Alike

/-- **A history changes nothing but what is put back.** -/
theorem History.alike {scope : Scope} {strategy : Strategy} {recorded : Bool}
    (history : History scope strategy recorded e) : e.Alike (fresh scope strategy recorded) := by
  induction history with
  | made => exact .refl _
  | ran _ run ih => exact ih.of_ends run
  | strayed _ ih => exact ih.of_runSupplied_foreign _
  | noted _ concurrent ih => exact ih.of_noteFailure (ih.strategy.trans concurrent) _ _ _
  | shared r _ ih =>
    exact ⟨ih.scope, ih.strategy, (Option.isSome_map ..).trans ih.recording, ih.failure⟩

/-! ## What a run takes from its explorer -/

namespace Alike

/-- What replaces a recording does so in both. -/
theorem map_recording {α : Type} (alike : e.Alike e') (a : α) :
    (e.recording.map fun _ => a) = e'.recording.map fun _ => a := by
  have recording := alike.recording
  cases he : e.recording <;> cases he' : e'.recording <;> simp_all

theorem opening_eq (alike : e.Alike e') (start : Supplied Text) : e.opening start = e'.opening start := by
  unfold opening
  rw [alike.scope, alike.strategy]

/-- **A run begins in the same way.** -/
theorem openTrail_eq (alike : e.Alike e') (start : Text) (journal : Journal) (heard : σ) :
    e.openTrail start journal heard = e'.openTrail start journal heard := by
  simp only [openTrail, alike.opening_eq, alike.map_recording]

/-- On a pool the same is to be done. -/
theorem plan_eq (alike : e.Alike e') (crew : Crew) (listener : Listener σ) (start : Text) :
    e.plan crew listener start = e'.plan crew listener start := by
  simp only [plan, alike.scope]

/-- From the same outcome of the loop a run comes to the same end. -/
theorem afterSequential_eq (alike : e.Alike e') (sequential : e.strategy = .sequential) (start : Text)
    (o : Sequential.Outcome σ) : e.afterSequential start o = e'.afterSequential start o := by
  have failure := alike.failure sequential
  obtain ⟨scope, strategy, -, -⟩ := alike
  cases e
  cases e'
  simp only at scope strategy failure
  subst scope strategy failure
  rfl

/-- From the same end of a pool a run comes to the same end. -/
theorem afterPool_eq (alike : e.Alike e') (start : Text) (p : Pool σ) :
    e.afterPool start p = e'.afterPool start p := by
  obtain ⟨scope, strategy, -, -⟩ := alike
  cases e
  cases e'
  simp only at scope strategy
  subst scope strategy
  rfl

/-- **A run may come to the same.** -/
theorem ends_iff (alike : e.Alike e') {ended : Ended σ} :
    e.Ends listener start journal heard ended ↔ e'.Ends listener start journal heard ended := by
  -- one direction for both: `Alike` is symmetric
  have forth {e e' : Explorer} (alike : e.Alike e')
      (run : e.Ends listener start journal heard ended) :
      e'.Ends listener start journal heard ended := by
    cases run with
    | sequential strategy =>
      rw [alike.afterSequential_eq strategy, alike.openTrail_eq, alike.scope]
      exact .sequential (alike.strategy.symm.trans strategy)
    | concurrent strategy reachable finished =>
      rw [alike.plan_eq, alike.openTrail_eq] at reachable
      rw [alike.afterPool_eq]
      exact .concurrent (alike.strategy.symm.trans strategy) reachable finished
  exact ⟨forth alike, forth alike.symm⟩

/-- **A run shows the same on the way.** -/
theorem passes_iff (alike : e.Alike e') {trail : Trail σ} :
    e.Passes listener start journal heard trail ↔ e'.Passes listener start journal heard trail := by
  have forth {e e' : Explorer} (alike : e.Alike e')
      (passes : e.Passes listener start journal heard trail) :
      e'.Passes listener start journal heard trail := by
    cases passes with
    | sequential strategy passes =>
      rw [alike.openTrail_eq, alike.scope] at passes
      exact .sequential (alike.strategy.symm.trans strategy) passes
    | concurrent strategy reachable =>
      rw [alike.plan_eq, alike.openTrail_eq] at reachable
      exact .concurrent (alike.strategy.symm.trans strategy) reachable
  exact ⟨forth alike, forth alike.symm⟩

/-- What is computed is the same. -/
theorem run_eq (alike : e.Alike e') (listener : Listener σ) (start : Text) (journal : Journal) (heard : σ) :
    e.run listener start journal heard = e'.run listener start journal heard := by
  cases strategy : e.strategy with
  | sequential =>
    rw [e.run_of_sequential start strategy,
      e'.run_of_sequential start (alike.strategy.symm.trans strategy), alike.afterSequential_eq strategy,
      alike.openTrail_eq, alike.scope]
  | concurrent crew =>
    have strategy' : e'.strategy = .concurrent crew := alike.strategy.symm.trans strategy
    simp only [run, strategy, strategy', alike.plan_eq, alike.openTrail_eq]
    exact alike.afterPool_eq start _

/-- What is no text is taken up in the same way; only the count may be left as it was. -/
theorem runStray_eq (alike : e.Alike e') (stray : Foreign) (journal : Journal) (heard : σ) :
    (e.runStray stray journal heard).result = (e'.runStray stray journal heard).result ∧
      (e.runStray stray journal heard).heard = (e'.runStray stray journal heard).heard ∧
      (e.runStray stray journal heard).journal = (e'.runStray stray journal heard).journal ∧
      (e.runStray stray journal heard).explorer.recording =
        (e'.runStray stray journal heard).explorer.recording := by
  have recording : (e.recording.map fun _ => Derivation.Recording.stray stray) =
      e'.recording.map fun _ => Derivation.Recording.stray stray := alike.map_recording _
  have opening : e.opening (.foreign stray) = e'.opening (.foreign stray) := alike.opening_eq _
  unfold runStray
  simp only [opening, recording, alike.scope, alike.strategy]
  split
  · split
    · exact ⟨rfl, rfl, rfl, rfl⟩
    · exact ⟨rfl, rfl, rfl, rfl⟩
  · exact ⟨rfl, rfl, rfl, rfl⟩

end Alike

/-! ## The next run -/

/-- **Runs of one explorer are isolated.** Whatever happened to an explorer since it was made, its next run
is a run of the fresh one. From a text it may come to the same ends, with the same calls, outstanding texts,
results and recordings, and it shows the same on the way; on a pool the same schedules are possible, and lead
to the same states. From something that is no text a sequential run ends alike, too. A pool refuses that,
fresh or not, and the refused run leaves the explorer as it was: the count, the kept failure and the
recording. -/
theorem runs_are_isolated {scope : Scope} {strategy : Strategy} {recorded : Bool}
    (history : History scope strategy recorded e) (listener : Listener σ) (start : Text) (stray : Foreign)
    (journal : Journal) (heard : σ) :
    let made := fresh scope strategy recorded
    let trail (x : Explorer) : Trail (Heard σ) := x.openTrail start journal ([], heard)
    let plan (x : Explorer) (crew : Crew) := x.plan crew listener.overheard start
    let straying (x : Explorer) := x.runSupplied listener.overheard (.foreign stray) journal ([], heard)
    (∀ ended, e.Ends listener.overheard start journal ([], heard) ended ↔
        made.Ends listener.overheard start journal ([], heard) ended) ∧
      (∀ shown, e.Passes listener.overheard start journal ([], heard) shown ↔
        made.Passes listener.overheard start journal ([], heard) shown) ∧
      (e.run listener.overheard start journal ([], heard) =
        made.run listener.overheard start journal ([], heard)) ∧
      (∀ crew, strategy = .concurrent crew →
        (∀ schedule, (Pool.initial start (trail e)).follow? (plan e crew) schedule =
          (Pool.initial start (trail made)).follow? (plan made crew) schedule) ∧
        (∀ p : Pool (Heard σ), e.afterPool start p = made.afterPool start p) ∧
        ∃ refusal, rootItem (.foreign stray) = .error refusal ∧
          straying e = ⟨e, journal, ([], heard), .error refusal⟩ ∧
          (straying made).result = .error refusal ∧
          (stray.keyable = true → refusal = textless stray)) ∧
      (strategy = .sequential →
        (straying e).result = (straying made).result ∧ (straying e).heard = (straying made).heard ∧
        (straying e).journal = (straying made).journal ∧
        (straying e).explorer.recording = (straying made).explorer.recording) := by
  intro made trail plan straying
  have alike : e.Alike made := history.alike
  refine ⟨fun _ => alike.ends_iff, fun _ => alike.passes_iff, alike.run_eq _ _ _ _,
    fun crew concurrent => ⟨fun schedule => ?_, alike.afterPool_eq start, ?_⟩,
    fun sequential => ?_⟩
  · simp only [trail, plan, alike.openTrail_eq, alike.plan_eq]
  · obtain ⟨refusal, refused, textless⟩ := exists_refusal stray
    refine ⟨refusal, refused, ?_, ?_, textless⟩
    · exact runSupplied_of_concurrent (alike.strategy.trans concurrent) refused
    · exact congrArg Ended.result (runSupplied_of_concurrent (e := made) concurrent refused)
  · have taken_up : straying e = e.runStray stray journal ([], heard) :=
      runSupplied_of_sequential (alike.strategy.trans sequential) stray
    have taken_up' : straying made = made.runStray stray journal ([], heard) :=
      runSupplied_of_sequential (e := made) sequential stray
    rw [taken_up, taken_up']
    exact alike.runStray_eq stray journal ([], heard)

/-- An explorer with a pool that had a run broken off, one refused, and a failure noted, and that lent its
recording, still holds that failure and runs like a fresh one. So does a sequential explorer that took up a
number and was left with a text outstanding. -/
theorem runs_are_isolated_converging :
    let pool : Strategy := .concurrent { workers := some 2 }
    let made := fresh .converging pool true
    let broken := (made.run (.refusing (.broken "full")) ['S'] {} ()).explorer
    let refused := (broken.runSupplied Listener.taking (.foreign (.integer 5)) {} ()).explorer
    let noted := (refused.noteFailure ['T'] (.broken "late") {}).1
    let lent : Explorer := { noted with recording := noted.recording.map fun _ => .stray .absent }
    let stopped := ((fresh .converging .sequential false).runSupplied Listener.taking
      (.foreign (.integer 5)) {} ()).explorer
    (lent.failure ≠ none ∧
        lent.run Listener.taking.overheard ['S'] {} ([], ()) =
          made.run Listener.taking.overheard ['S'] {} ([], ()) ∧
        lent.runSupplied Listener.taking.overheard (.foreign (.flag true)) {} ([], ()) =
          ⟨lent, {}, ([], ()), .error (textless (.flag true))⟩) ∧
      stopped.outstanding = 1 ∧
        stopped.run Listener.taking.overheard ['S'] {} ([], ()) =
          (fresh .converging .sequential false).run Listener.taking.overheard ['S'] {} ([], ()) := by
  intro pool made broken refused noted lent stopped
  have history : History .converging pool true lent :=
    .shared _ (.noted (.strayed (.ran .made (made.ends_run _ _ _ _))) rfl)
  have history' : History .converging .sequential false stopped := .strayed .made
  obtain ⟨-, -, run, concurrent, -⟩ :=
    runs_are_isolated history Listener.taking ['S'] (.flag true) {} ()
  obtain ⟨-, -, refusal, -, refused', -, keyable⟩ := concurrent _ rfl
  obtain ⟨-, -, run', -⟩ := runs_are_isolated history' Listener.taking ['S'] (.flag true) {} ()
  have kept : lent.failure ≠ none := by
    change (refused.noteFailure ['T'] (.broken "late") {}).1.failure ≠ none
    unfold Explorer.noteFailure Exploration.noteFailure
    cases refused.failure <;> simp
  exact ⟨⟨kept, run, refused'.trans (by rw [keyable rfl])⟩, rfl, run'⟩

end Explorer

end SemiThue.Exploration
