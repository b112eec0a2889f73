/-
The count of outstanding texts in a sequential run.

The loop keeps the count by hand. It begins with one for the start, goes up with every text that is claimed, and down
with every text that is done. What it counts is what is pending: the text under way, the rest of its generation, and
the next generation as far as it is known. Every text that was come upon is either done or pending, and it is so once
(`Counts`).

A listener sees the count when it is told a word. `Tells` says at which moments of a run this is, and what is pending
then. Each call in the log was made at such a moment (`Logged`), so the count that it shows is exact, and never zero.

A run that ends well leaves nothing pending. A run that the listener breaks off leaves everything as it was, and the
count stays where the last call has seen it, although nothing will be done about the texts that it counts. A pool does
not do that: it counts every unit down, also the one that failed and those that are let pass.
-/
import SemiThue.Proofs.Pool.Join
import SemiThue.Proofs.Sequential.Termination

set_option autoImplicit false

namespace SemiThue

namespace Action

variable {α σ : Type}

/-- **Where a row of actions comes by**: begun in one state, it has come to an action, with the others still to come,
in another state. All actions before ended well. -/
inductive ComesTo (f : α → Action σ) : List α → σ → α → List α → σ → Prop where
  /-- The first action is next. -/
  | first {a : α} {l : List α} {s : σ} : ComesTo f (a :: l) s a l s
  /-- The first action ended well, and some other one is next. -/
  | later {a b : α} {l rest : List α} {s t u : σ} : f a s = (t, none) → ComesTo f l t b rest u →
      ComesTo f (a :: l) s b rest u

variable {f : α → Action σ} {l rest : List α} {a : α} {s u : σ}

/-- What is known before every action is known wherever the row comes by. -/
theorem ComesTo.holds {P : List α → σ → Prop} {Q : σ → Fault → Prop}
    (well : ∀ a l s, P (a :: l) s → Ends (P l) Q (f a s)) (h : ComesTo f l s a rest u) (hs : P l s) :
    P (a :: rest) u := by
  induction h with
  | first => exact hs
  | later ended _ ih =>
    have next := well _ _ _ hs
    rw [ended] at next
    exact ih next

/-- A row of actions, of which each may be looked at where the row comes to it. -/
theorem each_ends_where {P : σ → Prop} {Q : σ → Fault → Prop}
    (well : ∀ a rest u, ComesTo f l s a rest u → P u → Ends P Q (f a u)) (hs : P s) :
    Ends P Q (each f l s) := by
  induction l generalizing s with
  | nil => exact hs
  | cons a l ih =>
    have first := well a l s .first hs
    cases ended : f a s with
    | mk t fault =>
      rw [ended] at first
      cases fault with
      | some fault =>
        rw [each_cons_of_some ended]
        exact first
      | none =>
        rw [each_cons_of_none ended]
        exact ih (fun b rest u comes => well b rest u (.later ended comes)) first

end Action

namespace Exploration.Sequential

variable {σ : Type} {scope : Scope} {listener : Listener σ} {start text : Text} {trail : Trail σ} {s : State σ}
  {under rest : List Text}

/-! ## The count -/

/-- **The count is exact** when these texts are under way, and these are the rest of the generation. Of the texts come
upon some are done, and the others are pending; the count is that of the latter. -/
structure Counts (under rest : List Text) (s : State σ) : Prop where
  /-- Every text come upon is done or pending, once. -/
  placed : ∃ done, s.trail.taken = under ++ done ∧ (done ++ (under ++ rest ++ s.next)).Perm s.visited.texts
  /-- What is pending is counted. -/
  outstanding : s.outstanding = (under ++ rest ++ s.next).length

namespace Counts

/-- What else is in the trail does not matter. -/
theorem of_taken (h : Counts under rest s) {trail' : Trail σ} (same : trail'.taken = s.trail.taken) :
    Counts under rest { s with trail := trail' } :=
  ⟨h.placed.imp fun _ => And.imp_left same.trans, h.outstanding⟩

/-- A text that is claimed is pending, and it is counted. -/
theorem claim (h : Counts under rest s) (t : Text) : Counts under rest (s.claim t) := by
  unfold State.claim
  split
  · exact h
  · rename_i visited claimed
    obtain ⟨new, rfl⟩ := Visited.claim?_eq_some_iff.1 claimed
    obtain ⟨done, taken, placed⟩ := h.placed
    have texts : (s.visited.insert t).texts = t :: s.visited.texts := by simp [Visited.insert, new, Visited.add]
    refine ⟨⟨done, taken, ?_⟩, ?_⟩
    · rw [texts, ← List.append_assoc, ← List.append_assoc]
      refine List.perm_middle.trans (List.Perm.cons t ?_)
      simpa only [List.append_assoc] using placed
    · simp only [Outstanding.up_eq, h.outstanding, List.length_append, List.length_cons]
      rfl

/-- A text that is taken up is under way. -/
theorem opened (h : Counts [] (text :: rest) s) : Counts [text] rest { s with trail := s.trail.opened text } := by
  obtain ⟨done, taken, placed⟩ := h.placed
  exact ⟨⟨done, congrArg (text :: ·) taken, placed⟩, h.outstanding⟩

/-- A text that is done is pending no more. -/
theorem done (h : Counts [text] rest s) : Counts [] rest { s with outstanding := s.outstanding.down } := by
  obtain ⟨done, taken, placed⟩ := h.placed
  refine ⟨⟨text :: done, taken, List.perm_middle.symm.trans placed⟩, ?_⟩
  show s.outstanding.down = _
  rw [Outstanding.down_eq, h.outstanding]
  exact Int.add_sub_cancel ((rest ++ s.next).length : Int) 1

/-- The generation that was collected is the next one. -/
theorem turn (h : Counts [] [] s) : Counts [] s.next.reverse { s with next := [] } := by
  obtain ⟨done, taken, placed⟩ := h.placed
  refine ⟨⟨done, taken, ?_⟩, ?_⟩
  · simpa using ((List.reverse_perm s.next).append_left done).trans placed
  · simpa using h.outstanding

end Counts

/-- One rule. -/
theorem counts_applyRule (rule : Rule) (h : Counts under rest s) :
    Action.Ends (Counts under rest) (fun _ _ => True) (applyRule scope listener text rule s) := by
  have took := h.of_taken (Trail.taken_took s.trail (scope.apply text rule))
  refine ends_applyRule (fun _ _ => took) (fun _ => took.claim _) fun _ => ?_
  dsimp only
  cases (listener s.outstanding (rule.rewrite text) s.trail.heard).2 with
  | none => exact took.of_taken rfl
  | some fault => trivial

/-- One text. -/
theorem counts_expand (h : Counts [] (text :: rest) s) :
    Action.Ends (Counts [] rest) (fun _ _ => True) (expand scope listener text s) := by
  have rules := Action.each_ends (P := fun _ => Counts [text] rest) (Q := fun _ _ => True)
    (f := applyRule scope listener text) (fun rule _ _ => counts_applyRule rule) (l := scope.grammar.rules) h.opened
  exact ends_expand rules fun _ => Counts.done

/-- The state in which a generation begins. -/
def Loop.begun (l : Loop σ) : State σ :=
  { l.state with next := [], trail := l.state.trail.noted .debug (heading l.number l.stage.length) }

theorem generation_eq (l : Loop σ) : generation scope listener l.number l.stage l.state =
    Action.each (expand scope listener) l.stage l.begun := rfl

/-- **When a generation begins** its texts are pending. -/
theorem Reached.counts {l : Loop σ} (reached : Reached scope listener start trail l) (fresh : trail.taken = []) :
    Counts [] l.stage l.begun := by
  induction reached with
  | first => exact ⟨⟨[], fresh, .refl _⟩, rfl⟩
  | @turn l t _ _ ended ih =>
    have texts := Action.each_ends (P := fun stage => Counts [] stage) (Q := fun _ _ => True)
      (f := expand scope listener) (fun _ _ _ => counts_expand) ih
    rw [← generation_eq, ended] at texts
    exact (Counts.turn texts).of_taken (Trail.taken_noted _ _ _)

/-! ## The moments at which words are told -/

/-- A moment at which a word is told. -/
structure Moment (σ : Type) where
  /-- The text that is being taken up. -/
  text : Text
  /-- The rest of its generation. -/
  waiting : List Text
  /-- The rule that gives the word. -/
  rule : Rule
  /-- The state in which the listener is called. -/
  state : State σ

/-- The word that is told. -/
def Moment.word (m : Moment σ) : Text := m.rule.rewrite m.text

/-- **What is pending**: the text under way, the rest of its generation, and the next one as far as it is known. -/
def Moment.pending (m : Moment σ) : List Text := [m.text] ++ m.waiting ++ m.state.next

/-- **The moments of a run at which a word is told.** The loop has come by a generation, the generation by a text, and
the text by a rule that gives a word. -/
inductive Tells (scope : Scope) (listener : Listener σ) (start : Text) (trail : Trail σ) : Moment σ → Prop where
  | intro {l : Loop σ} {text : Text} {waiting : List Text} {rule : Rule} {todo : List Rule} {s t : State σ}
      (reached : Reached scope listener start trail l)
      (texts : Action.ComesTo (expand scope listener) l.stage l.begun text waiting s)
      (rules : Action.ComesTo (applyRule scope listener text) scope.grammar.rules
        { s with trail := s.trail.opened text } rule todo t)
      (word : (scope.apply text rule).verdict = .word) :
      Tells scope listener start trail
        ⟨text, waiting, rule, { t with trail := t.trail.took (scope.apply text rule) }⟩

/-- **The count is exact whenever a word is told.** -/
theorem Tells.counts {m : Moment σ} (h : Tells scope listener start trail m) (fresh : trail.taken = []) :
    Counts [m.text] m.waiting m.state := by
  cases h with
  | @intro l text waiting rule todo s t reached texts rules word =>
    have before : Counts [] (text :: waiting) s :=
      texts.holds (P := fun stage => Counts [] stage) (Q := fun _ _ => True) (fun _ _ _ => counts_expand)
        (reached.counts fresh)
    have under : Counts [text] waiting t :=
      rules.holds (P := fun _ => Counts [text] waiting) (Q := fun _ _ => True) (fun rule _ _ => counts_applyRule rule)
        before.opened
    exact under.of_taken (Trail.taken_took _ _)

/-! ## The calls in the log -/

section Log

variable {trail : Trail (Heard σ)} {s u : State (Heard σ)} {l : Loop (Heard σ)}

/-- **Every call in the log** was made at a moment at which a word is told, and shows the count of this moment. -/
def Logged (scope : Scope) (listener : Listener σ) (start : Text) (trail : Trail (Heard σ))
    (s : State (Heard σ)) : Prop :=
  ∀ later call earlier, s.trail.heard.1 = later ++ call :: earlier →
    ∃ m, Tells scope listener.overheard start trail m ∧ m.state.trail.heard.1 = earlier ∧
      call.word = m.word ∧ call.outstanding = m.state.outstanding

/-- **The last call was refused**, and the count is what it was then. -/
structure Stopped (scope : Scope) (listener : Listener σ) (start : Text) (trail : Trail (Heard σ))
    (s : State (Heard σ)) (fault : Fault) : Prop where
  /-- The calls are in the log, the last one too. -/
  logged : Logged scope listener start trail s
  /-- The fault is that of the last call. -/
  last : ∃ call calls, s.trail.heard.1 = call :: calls ∧ call.fault = some fault ∧
    s.outstanding = call.outstanding

theorem Logged.of_heard (h : Logged scope listener start trail s) (same : u.trail.heard = s.trail.heard) :
    Logged scope listener start trail u := by
  unfold Logged
  rwa [same]

/-- A call more. -/
theorem Logged.told (h : Logged scope listener start trail s) {m : Moment (Heard σ)} {call : Call}
    (log : u.trail.heard.1 = call :: s.trail.heard.1) (tells : Tells scope listener.overheard start trail m)
    (before : m.state.trail.heard.1 = s.trail.heard.1) (word : call.word = m.word)
    (count : call.outstanding = m.state.outstanding) : Logged scope listener start trail u := by
  intro later other earlier split
  rw [log] at split
  cases later with
  | nil =>
    obtain ⟨rfl, rfl⟩ := List.cons.inj split
    exact ⟨m, tells, before, word, count⟩
  | cons last later => exact h later other earlier (List.cons.inj split).2

/-- One rule, where the run comes to it. -/
theorem logged_applyRule {waiting : List Text} {rule : Rule} {todo : List Rule}
    (reached : Reached scope listener.overheard start trail l)
    (texts : Action.ComesTo (expand scope listener.overheard) l.stage l.begun text waiting s)
    (rules : Action.ComesTo (applyRule scope listener.overheard text) scope.grammar.rules
      { s with trail := s.trail.opened text } rule todo u)
    (h : Logged scope listener start trail u) :
    Action.Ends (Logged scope listener start trail) (Stopped scope listener start trail)
      (applyRule scope listener.overheard text rule u) := by
  have heard := Trail.heard_took u.trail (scope.apply text rule)
  refine ends_applyRule (fun _ _ => h.of_heard heard) (fun _ => h.of_heard ?_) fun word => ?_
  · rw [trail_claim]
    exact heard
  · have tells : Tells scope listener.overheard start trail
        ⟨text, waiting, rule, { u with trail := u.trail.took (scope.apply text rule) }⟩ :=
      .intro reached texts rules word
    have before := congrArg Prod.fst heard
    simp only [Listener.overheard_apply]
    cases (listener u.outstanding (rule.rewrite text) u.trail.heard.2).2 with
    | none => exact h.told rfl tells before rfl rfl
    | some fault => exact ⟨h.told rfl tells before rfl rfl, _, _, rfl, rfl, rfl⟩

/-- One text, where the run comes to it. -/
theorem logged_expand {waiting : List Text} (reached : Reached scope listener.overheard start trail l)
    (texts : Action.ComesTo (expand scope listener.overheard) l.stage l.begun text waiting s)
    (h : Logged scope listener start trail s) :
    Action.Ends (Logged scope listener start trail) (Stopped scope listener start trail)
      (expand scope listener.overheard text s) := by
  have rules := Action.each_ends_where (P := Logged scope listener start trail)
    (Q := Stopped scope listener start trail) (f := applyRule scope listener.overheard text)
    (l := scope.grammar.rules) (s := { s with trail := s.trail.opened text })
    (fun _ _ _ comes h => logged_applyRule reached texts comes h) (h.of_heard rfl)
  exact ends_expand rules fun _ h => h.of_heard rfl

theorem logged_generation (reached : Reached scope listener.overheard start trail l)
    (h : Logged scope listener start trail l.state) :
    Action.Ends (Logged scope listener start trail) (Stopped scope listener start trail)
      (generation scope listener.overheard l.number l.stage l.state) :=
  Action.each_ends_where (fun _ _ _ comes h => logged_expand reached comes h) (h.of_heard rfl)

theorem Reached.logged (reached : Reached scope listener.overheard start trail l) (fresh : trail.Fresh) :
    Logged scope listener start trail l.state := by
  induction reached with
  | first =>
    intro later call earlier split
    have blank : trail.heard.1 = [] := fresh.calls
    simp [State.initial, blank] at split
  | turn reached _ ended ih =>
    have generation := logged_generation reached ih
    rwa [ended] at generation

end Log

/-! ## The end of a run -/

/-- A run that is broken off in its first generation. -/
theorem run_of_refused {fault : Fault}
    (refused : generation scope listener 0 [start] (.initial start trail) = (s, some fault)) :
    run scope listener start trail = ⟨s, 0, some fault⟩ := by
  rw [run, explore, dif_neg (List.cons_ne_nil start [])]
  split
  · rename_i ended
    obtain ⟨rfl, same⟩ := Prod.mk.inj (refused.symm.trans ended)
    rw [Option.some.inj same]
  · rename_i ended
    cases refused.symm.trans ended

/-- A run that ends well leaves nothing outstanding. -/
theorem outstanding_eq_zero_of_fault_eq_none (fresh : trail.taken = [])
    (well : (run scope listener start trail).fault = none) :
    (run scope listener start trail).state.outstanding = 0 := by
  obtain ⟨l, reached, nothing, outcome⟩ := exists_reached_of_fault_eq_none well
  have counts := (reached.counts fresh).outstanding
  rw [nothing] at counts
  rw [outcome]
  exact counts

/-- Every call of a run is in its log, and a run that is broken off is so by the last call. -/
theorem logged_run (scope : Scope) (listener : Listener σ) (start : Text) {trail : Trail (Heard σ)}
    (fresh : trail.Fresh) :
    Logged scope listener start trail (run scope listener.overheard start trail).state ∧
      ∀ fault, (run scope listener.overheard start trail).fault = some fault →
        Stopped scope listener start trail (run scope listener.overheard start trail).state fault := by
  obtain ⟨l, reached, ends⟩ := exists_ends_run scope listener.overheard start trail
  generalize run scope listener.overheard start trail = o at ends
  cases ends with
  | done => exact ⟨reached.logged fresh, nofun⟩
  | refused _ ended =>
    have stopped := logged_generation reached (reached.logged fresh)
    rw [ended] at stopped
    exact ⟨stopped.logged, fun _ same => Option.some.inj same ▸ stopped⟩

/-- **The count of a sequential run is exact while the run is going on.** Whenever a word is told, every text come upon
is done or pending, once, and the count is that of the pending ones, so it is not zero. Every call in the log was made
at such a moment. When the run has ended with a report, the count is zero. When it has ended in a fault, the fault is
that of the last call, and the count is what this call has seen. -/
theorem outstanding_counts_pending {e : Explorer} (sequential : e.strategy = .sequential) (listener : Listener σ)
    (start : Text) (journal : Journal) (heard : σ) :
    let trail := e.openTrail start journal ([], heard)
    let ended := e.run listener.overheard start journal ([], heard)
    (∀ m, Tells e.scope listener.overheard start trail m →
        (∃ done, m.state.trail.taken = m.text :: done ∧ (done ++ m.pending).Perm m.state.visited.texts) ∧
          m.state.outstanding = m.pending.length ∧ 1 ≤ m.state.outstanding) ∧
      (∀ later call earlier, ended.heard.1 = later ++ call :: earlier →
        ∃ m, Tells e.scope listener.overheard start trail m ∧ m.state.trail.heard.1 = earlier ∧
          call.word = m.word ∧ call.outstanding = m.state.outstanding) ∧
      (ended.Reports → ended.explorer.outstanding = 0) ∧
      ∀ fault, ended.result = .error fault → ∃ call calls, ended.heard.1 = call :: calls ∧
        call.fault = some fault ∧ ended.explorer.outstanding = call.outstanding := by
  intro trail ended
  have fresh : trail.Fresh := e.fresh_openTrail start journal heard
  have outcome : ended = e.afterSequential start (run e.scope listener.overheard start trail) :=
    e.run_of_sequential start sequential _ _ _
  obtain ⟨logged, stopped⟩ := logged_run e.scope listener start fresh
  rw [outcome, e.heard_afterSequential, e.outstanding_afterSequential, e.result_afterSequential,
    e.reports_afterSequential_iff]
  refine ⟨fun m tells => ?_, logged, outstanding_eq_zero_of_fault_eq_none fresh.taken, fun fault failed => ?_⟩
  · have counts := tells.counts fresh.taken
    have counted : m.state.outstanding = m.pending.length := counts.outstanding
    refine ⟨counts.placed, counted, ?_⟩
    rw [counted]
    exact Int.ofNat_le.2 (Nat.succ_pos _)
  · cases refused : (run e.scope listener.overheard start trail).fault with
    | none =>
      rw [refused] at failed
      cases failed
    | some cause =>
      rw [refused] at failed
      obtain rfl : cause = fault := Except.error.inj failed
      exact (stopped cause refused).last

/-- On a scope with four rules, the third of which is for `T`, all words are told and nothing is left; and if the first
word is refused, the count is what the listener has seen. -/
theorem outstanding_counts_pending_converging :
    let e : Explorer := { scope := .converging, strategy := .sequential }
    let ended := e.run Listener.taking.overheard ['S'] {} ([], ())
    let broken := e.run (Listener.refusing (.broken "full")).overheard ['S'] {} ([], ())
    ended.explorer.outstanding = 0 ∧ ∃ call calls, broken.heard.1 = call :: calls ∧
      call.fault = some (.broken "full") ∧ broken.explorer.outstanding = call.outstanding := by
  intro e ended broken
  have fresh := e.fresh_openTrail ['S'] {} ()
  obtain ⟨-, -, completed, -⟩ := outstanding_counts_pending (e := e) rfl Listener.taking ['S'] {} ()
  obtain ⟨-, -, -, failed⟩ := outstanding_counts_pending (e := e) rfl (.refusing (.broken "full")) ['S'] {} ()
  refine ⟨completed ?_, failed _ ?_⟩
  · rw [e.run_of_sequential ['S'] rfl, e.reports_afterSequential_iff]
    exact (exhaustive_run Listener.assents_taking _ _ fresh).1
  · rw [e.run_of_sequential ['S'] rfl, e.result_afterSequential, run_of_refused rfl]
    rfl

/-- **A run that is broken off leaves its count behind**: `S` is under way and `T` waits when the first word is refused,
and two texts stay outstanding. On a pool nothing is outstanding after any run. -/
theorem outstanding_stays_converging :
    let e : Explorer := { scope := .converging, strategy := .sequential }
    let pool (crew : Crew) : Explorer := { e with strategy := .concurrent crew }
    let listener := Listener.refusingNth 0 (.broken "stop")
    let broken := e.run listener ['S'] {} 0
    broken.result = .error (.broken "stop") ∧ broken.explorer.outstanding = 2 ∧
      ∀ crew ended, (pool crew).Ends listener ['S'] {} 0 ended → ended.explorer.outstanding = 0 := by
  intro e pool listener broken
  have outcome : broken = e.afterSequential ['S'] (run e.scope listener ['S'] (e.openTrail ['S'] {} 0)) :=
    e.run_of_sequential ['S'] rfl _ _ _
  refine ⟨?_, ?_, fun crew ended run => ?_⟩
  · rw [outcome, e.result_afterSequential, run_of_refused rfl]
    rfl
  · rw [outcome, e.outstanding_afterSequential, run_of_refused rfl]
    rfl
  · cases run with
    | sequential strategy => cases strategy
    | concurrent _ reachable finished =>
      rw [(pool crew).outstanding_afterPool]
      exact reachable.joined.outstanding_eq_zero finished

end Exploration.Sequential

end SemiThue
