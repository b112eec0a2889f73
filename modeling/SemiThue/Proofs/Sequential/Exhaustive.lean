/-
What a sequential run amounts to.

The frontier loop is a worklist algorithm with its list cut into generations. While a generation is
under way every text come upon is in one of three places: taken up already, in the rest of the
generation, or in the generation to come. And it is in that place once. What the rules made of the
texts taken up is either settled, so that words were told and live texts were marked as visited, or it
is still ahead, for the one text that is being taken up. `Books` says all this; every part of the loop
keeps it, from one rule to the whole exploration, as long as the listener takes the words. When no
generation is left, nothing is ahead and nothing waits, and the books say that the trail is exhaustive. A
run that ends in a fault has it from the last of its calls.
-/
import SemiThue.Proofs.Ended
import SemiThue.Proofs.Exhaustive

set_option autoImplicit false

namespace SemiThue

namespace Action

variable {α σ : Type}

/-- What is known at the end of an action: one thing if it ended well, another if in a fault. -/
def Ends (P : σ → Prop) (Q : σ → Fault → Prop) : σ × Option Fault → Prop
  | (s, none) => P s
  | (s, some fault) => Q s fault

/-- **A row of actions, one after the other.** What is known may depend on the actions still to
come. -/
theorem each_ends {P : List α → σ → Prop} {Q : σ → Fault → Prop} {f : α → Action σ}
    (h : ∀ a l s, P (a :: l) s → Ends (P l) Q (f a s)) {l : List α} {s : σ} (hs : P l s) :
    Ends (P []) Q (each f l s) := by
  induction l generalizing s with
  | nil => exact hs
  | cons a l ih =>
    have ha := h a l s hs
    cases hf : f a s with
    | mk t e =>
      rw [hf] at ha
      cases e with
      | none => rw [each_cons_of_none hf]; exact ih ha
      | some fault => rw [each_cons_of_some hf]; exact ha

end Action

namespace Exploration.Sequential

variable {σ : Type}

/-- **The books of a generation under way**: with these applications ahead for the text that is being
taken up, and these texts in the rest of the generation. -/
structure Books (scope : Scope) (start : Text) (ahead : List Application) (rest : List Text)
    (s : State (Heard σ)) : Prop where
  /-- Every text come upon is in one place, once. -/
  once : ∀ t, s.trail.taken.count t + rest.count t + s.next.count t = if t ∈ s.visited then 1 else 0
  /-- The start was come upon. -/
  start_mem : start ∈ s.visited
  /-- Only texts to be taken up were come upon. -/
  reach : ∀ t ∈ s.visited, scope.Reach start t
  /-- Only texts to be taken up will be. -/
  reach_ahead : ∀ t ∈ outputs .live ahead, scope.Reach start t
  /-- Live results were come upon, or are ahead. -/
  closed : ∀ t ∈ s.trail.taken, ∀ u ∈ outputs .live (scope.applications t),
    u ∈ s.visited ∨ u ∈ outputs .live ahead
  /-- Applications were counted, or are ahead. -/
  tally : ∀ v, s.trail.tally.ofVerdict v + (outputs v ahead).length =
    Measure.total (scope.yield v) s.trail.taken
  /-- Words were told, or are ahead. -/
  told : ∀ word, s.trail.told.count word + (outputs .word ahead).count word =
    Measure.total (scope.yieldOf word) s.trail.taken
  /-- Every call was answered well. -/
  answered : ∀ call ∈ s.trail.calls, call.fault = none

namespace Books

variable {scope : Scope} {listener : Listener σ} {start : Text} {rest : List Text}
  {ahead : List Application} {s : State (Heard σ)}

/-- Taking up a text puts the applications of all rules to it ahead. -/
theorem opened {text : Text} (h : Books scope start [] (text :: rest) s) :
    Books scope start (scope.applications text) rest
      { s with trail := s.trail.opened text } where
  once t := by
    have := h.once t
    simp only [Trail.taken_opened, List.count_cons] at this ⊢
    omega
  start_mem := h.start_mem
  reach := h.reach
  reach_ahead t ht := by
    -- the text stands in the rest of the generation, so it was come upon
    have hv : text ∈ s.visited := by
      have hc := h.once text
      by_contra hn
      rw [if_neg hn, List.count_cons_self] at hc
      omega
    exact (h.reach text hv).of_mem_outputs ht
  closed t ht u hu := by
    rcases List.mem_cons.1 ht with rfl | ht
    · exact .inr hu
    · rcases h.closed t ht u hu with hv | hn
      · exact .inl hv
      · simp at hn
  tally v := by
    have := h.tally v
    simp only [Trail.taken_opened, Trail.tally_opened, Measure.total_cons, outputs_nil,
      List.length_nil] at this ⊢
    rw [← this, Scope.yield, Nat.add_zero, Nat.add_comm]
  told word := by
    have := h.told word
    simp only [Trail.taken_opened, Measure.total_cons, outputs_nil, List.count_nil] at this ⊢
    rw [← this, Scope.yieldOf, Nat.add_comm]
    rfl
  answered := h.answered

theorem reach_ahead_of_cons {a : Application} (h : Books scope start (a :: ahead) rest s) {t : Text}
    (ht : t ∈ outputs .live ahead) : scope.Reach start t :=
  h.reach_ahead t (by rw [outputs_cons]; exact List.mem_append_right _ ht)

/-- An application that gives neither a word nor a live text is settled by counting it. -/
theorem passed {a : Application} (h : Books scope start (a :: ahead) rest s)
    (hw : a.verdict ≠ .word) (hl : a.verdict ≠ .live) :
    Books scope start ahead rest { s with trail := s.trail.took a } where
  once t := by simpa using h.once t
  start_mem := h.start_mem
  reach := h.reach
  reach_ahead t ht := h.reach_ahead_of_cons ht
  closed t ht u hu := by
    have := h.closed t (by simpa using ht) u hu
    rwa [outputs_cons, if_neg hl] at this
  tally v := by
    rw [Trail.tally_took, Trail.taken_took, Tally.ofVerdict_count_add, h.tally]
  told word := by
    have := h.told word
    rw [outputs_cons, if_neg hw] at this
    simpa [Trail.told, Trail.calls] using this
  answered := by simpa [Trail.calls] using h.answered

/-- A word is settled by telling it, if the listener takes it. -/
theorem tell {a : Application} (h : Books scope start (a :: ahead) rest s) (hw : a.verdict = .word)
    (n : Outstanding) (heard : σ) :
    Books scope start ahead rest
      { s with trail := { s.trail.took a with
          heard := (⟨a.step.output, n, none⟩ :: s.trail.heard.1, heard) } } where
  once t := by simpa using h.once t
  start_mem := h.start_mem
  reach := h.reach
  reach_ahead t ht := h.reach_ahead_of_cons ht
  closed t ht u hu := by
    have := h.closed t (by simpa using ht) u hu
    rwa [outputs_cons, hw, if_neg (by decide)] at this
  tally v := by
    rw [Trail.tally_took, Trail.taken_took, Tally.ofVerdict_count_add, h.tally]
  told word := by
    have := h.told word
    rw [outputs_cons, if_pos hw, List.count_append] at this
    simp only [Trail.told, Trail.calls, List.map_cons, Trail.taken_took, List.count_cons,
      List.count_nil] at this ⊢
    omega
  answered := List.forall_mem_cons.2 ⟨rfl, h.answered⟩

section Live

variable {a : Application}

theorem told_of_live (h : Books scope start (a :: ahead) rest s) (hl : a.verdict = .live) (word : Text) :
    s.trail.told.count word + (outputs .word ahead).count word =
      Measure.total (scope.yieldOf word) s.trail.taken := by
  have := h.told word
  rwa [outputs_cons, hl, if_neg (by decide)] at this

/-- What was ahead is the live text at hand, or ahead still. -/
theorem closed_of_live (h : Books scope start (a :: ahead) rest s) (hl : a.verdict = .live) {t u : Text}
    (ht : t ∈ s.trail.taken) (hu : u ∈ outputs .live (scope.applications t)) :
    u ∈ s.visited ∨ u = a.step.output ∨ u ∈ outputs .live ahead := by
  have := h.closed t ht u hu
  rwa [outputs_cons, if_pos hl, List.mem_append, List.mem_singleton] at this

/-- A live text that was come upon before is settled already. -/
theorem known (h : Books scope start (a :: ahead) rest s) (hl : a.verdict = .live)
    (old : a.step.output ∈ s.visited) :
    Books scope start ahead rest { s with trail := s.trail.took a } where
  once t := by simpa using h.once t
  start_mem := h.start_mem
  reach := h.reach
  reach_ahead t ht := h.reach_ahead_of_cons ht
  closed t ht u hu := by
    rcases h.closed_of_live hl (by simpa using ht) hu with hv | rfl | ha
    · exact .inl hv
    · exact .inl old
    · exact .inr ha
  tally v := by
    rw [Trail.tally_took, Trail.taken_took, Tally.ofVerdict_count_add, h.tally]
  told word := by simpa [Trail.told, Trail.calls] using h.told_of_live hl word
  answered := by simpa [Trail.calls] using h.answered

/-- A live text that is new is settled by putting it into the generation to come. -/
theorem found (h : Books scope start (a :: ahead) rest s) (hl : a.verdict = .live)
    (new : a.step.output ∉ s.visited) (outstanding : Outstanding) :
    Books scope start ahead rest
      { visited := s.visited.insert a.step.output
        next := a.step.output :: s.next
        outstanding
        trail := s.trail.took a } where
  once t := by
    have once := h.once t
    -- only the text that is claimed has a place more
    by_cases ht : t = a.step.output
    · subst ht
      rw [if_neg new] at once
      rw [if_pos (Visited.mem_insert.2 (.inl rfl))]
      simp only [Trail.taken_took, List.count_cons_self]
      omega
    · have hm : t ∈ s.visited.insert a.step.output ↔ t ∈ s.visited := by
        rw [Visited.mem_insert]
        simp [ht]
      simp only [Trail.taken_took, List.count_cons_of_ne (Ne.symm ht), hm]
      exact once
  start_mem := Visited.mem_insert.2 (.inr h.start_mem)
  reach t ht := by
    rcases Visited.mem_insert.1 ht with rfl | ht
    · refine h.reach_ahead _ ?_
      rw [outputs_cons, if_pos hl]
      exact List.mem_append_left _ (List.mem_singleton.2 rfl)
    · exact h.reach t ht
  reach_ahead t ht := h.reach_ahead_of_cons ht
  closed t ht u hu := by
    rcases h.closed_of_live hl (by simpa using ht) hu with hv | rfl | ha
    · exact .inl (Visited.mem_insert.2 (.inr hv))
    · exact .inl (Visited.mem_insert.2 (.inl rfl))
    · exact .inr ha
  tally v := by
    rw [Trail.tally_took, Trail.taken_took, Tally.ofVerdict_count_add, h.tally]
  told word := by simpa [Trail.told, Trail.calls] using h.told_of_live hl word
  answered := by simpa [Trail.calls] using h.answered

/-- A live text is settled by claiming it. -/
theorem claim (h : Books scope start (a :: ahead) rest s) (hl : a.verdict = .live) :
    Books scope start ahead rest
      (State.claim { s with trail := s.trail.took a } a.step.output) := by
  unfold State.claim
  split
  · rename_i hc
    exact h.known hl (Visited.claim?_eq_none_iff.1 hc)
  · rename_i visited hc
    obtain ⟨new, rfl⟩ := Visited.claim?_eq_some_iff.1 hc
    exact h.found hl new _

end Live

end Books

/-! ## The loops -/

section Loops

variable {scope : Scope} {listener : Listener σ} {start : Text} {rest : List Text}

/-- **What one rule does.** Its application is counted, recorded and announced; if it gives a live text,
that is claimed, and if it gives a word, that is told and may be refused. -/
theorem ends_applyRule {scope : Scope} {listener : Listener σ} {text : Text} {rule : Rule} {s : State σ}
    {P : State σ → Prop} {Q : State σ → Fault → Prop}
    (passed : (scope.apply text rule).verdict ≠ .word → (scope.apply text rule).verdict ≠ .live →
      P { s with trail := s.trail.took (scope.apply text rule) })
    (live : (scope.apply text rule).verdict = .live →
      P (State.claim { s with trail := s.trail.took (scope.apply text rule) } (rule.rewrite text)))
    (word : (scope.apply text rule).verdict = .word →
      let answer := listener s.outstanding (rule.rewrite text) s.trail.heard
      Action.Ends P Q
        ({ s with trail := { s.trail.took (scope.apply text rule) with heard := answer.1 } }, answer.2)) :
    Action.Ends P Q (applyRule scope listener text rule s) := by
  cases hv : (scope.apply text rule).verdict with
  | unchanged =>
    simp only [applyRule, hv]
    exact passed (by simp [hv]) (by simp [hv])
  | dropped =>
    simp only [applyRule, hv]
    exact passed (by simp [hv]) (by simp [hv])
  | live =>
    simp only [applyRule, hv]
    exact live hv
  | word =>
    simp only [applyRule, hv, Trail.tell_eq, Trail.heard_took]
    exact word hv

/-- **What one text does.** The rules are applied to it, and if that ended well, it is counted down. -/
theorem ends_expand {scope : Scope} {listener : Listener σ} {text : Text} {s : State σ} {P R : State σ → Prop}
    {Q : State σ → Fault → Prop}
    (rules : Action.Ends R Q (Action.each (applyRule scope listener text) scope.grammar.rules
      { s with trail := s.trail.opened text }))
    (done : ∀ t, R t → P { t with outstanding := t.outstanding.down }) :
    Action.Ends P Q (expand scope listener text s) := by
  unfold expand
  split <;> rename_i heq <;> rw [heq] at rules
  · exact done _ rules
  · exact rules

/-- **A call was answered with this fault**, as the listener answers it in some state. -/
def Refused (listener : Listener σ) (s : State (Heard σ)) (fault : Fault) : Prop :=
  ∃ call ∈ s.trail.calls, call.fault = some fault ∧
    ∃ heard, (listener call.outstanding call.word heard).2 = some fault

/-- **One rule** settles its application. -/
theorem books_applyRule {text : Text} {rule : Rule} {ahead : List Application} {s : State (Heard σ)}
    (h : Books scope start (scope.apply text rule :: ahead) rest s) :
    Action.Ends (Books scope start ahead rest) (Refused listener)
      (applyRule scope listener.overheard text rule s) := by
  refine ends_applyRule h.passed h.claim fun hv => ?_
  simp only [Listener.overheard_apply]
  cases answer : (listener s.outstanding (rule.rewrite text) s.trail.heard.2).2 with
  | none => exact h.tell hv _ _
  | some fault => exact ⟨_, List.mem_cons_self, rfl, _, answer⟩

/-- **One text**: all rules are applied to it. -/
theorem books_expand {text : Text} {s : State (Heard σ)} (h : Books scope start [] (text :: rest) s) :
    Action.Ends (Books scope start [] rest) (Refused listener)
      (expand scope listener.overheard text s) := by
  have hr := Action.each_ends (Q := Refused listener)
    (P := fun rules s => Books scope start (rules.map (scope.apply text)) rest s)
    (f := applyRule scope listener.overheard text)
    (fun rule rules s hs => books_applyRule hs) (l := scope.grammar.rules) h.opened
  -- the count of outstanding texts is not in the books
  exact ends_expand hr fun _ hr =>
    ⟨hr.once, hr.start_mem, hr.reach, hr.reach_ahead, hr.closed, hr.tally, hr.told, hr.answered⟩

/-- **One generation**: all its texts are taken up. -/
theorem books_generation (number : Nat) {stage : List Text} {s : State (Heard σ)}
    (h : Books scope start [] stage { s with next := [] }) :
    Action.Ends (Books scope start [] []) (Refused listener)
      (generation scope listener.overheard number stage s) := by
  refine Action.each_ends (P := fun stage s => Books scope start [] stage s)
    (fun text texts s hs => books_expand hs) ?_
  exact ⟨h.once, h.start_mem, h.reach, h.reach_ahead, h.closed, h.tally, h.told, h.answered⟩

/-- A generation that is done with is followed by the one that was collected meanwhile. -/
theorem Books.turn {s : State (Heard σ)} (h : Books scope start [] [] s) :
    Books scope start [] s.next.reverse { s with next := [] } where
  once t := by
    have := h.once t
    simp only [List.count_nil, List.count_reverse, Nat.add_zero] at this ⊢
    exact this
  start_mem := h.start_mem
  reach := h.reach
  reach_ahead := h.reach_ahead
  closed := h.closed
  tally := h.tally
  told := h.told
  answered := h.answered

/-- Books that are closed, with nothing ahead and nothing waiting, leave an exhaustive trail. -/
theorem Books.exhaustive {s : State (Heard σ)} (h : Books scope start [] [] { s with next := [] }) :
    Exhaustive scope start s.trail := by
  have once : ∀ t, s.trail.taken.count t = if t ∈ s.visited then 1 else 0 := by
    intro t
    have := h.once t
    simpa using this
  have mem_taken : ∀ t, t ∈ s.trail.taken ↔ t ∈ s.visited := by
    intro t
    rw [← List.count_pos_iff, once]
    by_cases ht : t ∈ s.visited <;> simp [ht]
  refine ⟨?_, ?_, ?_, ?_⟩
  · rw [List.nodup_iff_count]
    intro t
    rw [once]
    split <;> omega
  · intro t
    rw [mem_taken]
    refine ⟨h.reach t, fun ht => ?_⟩
    refine Scope.Reach.mem_of_closed (P := (· ∈ s.visited)) h.start_mem ?_ ht
    intro u hu w hw
    rcases h.closed u ((mem_taken u).2 hu) w hw with hv | ha
    · exact hv
    · simp at ha
  · intro v
    simpa using h.tally v
  · intro word
    simpa using h.told word

/-- What is known at the end of a run: it left nothing out and every call was answered well, or it ended in
the fault of some call. -/
def Outcome.Settled (scope : Scope) (listener : Listener σ) (start : Text) (o : Outcome (Heard σ)) : Prop :=
  Action.Ends (fun s => Exhaustive scope start s.trail ∧ ∀ call ∈ s.trail.calls, call.fault = none)
    (Refused listener) (o.state, o.fault)

/-- **The whole exploration** from a generation on. -/
theorem settled_explore {number : Nat} {stage : List Text}
    {within : ∀ t ∈ stage, t.Over (scope.grammar.charactersFrom start)} {s : State (Heard σ)}
    (h : Books scope start [] stage { s with next := [] }) :
    (explore scope listener.overheard start number stage within s).Settled scope listener start := by
  -- one step is one generation: it ends with closed books, which open the next
  fun_induction explore scope listener.overheard start number stage within s with
  | case1 number within s => exact ⟨h.exhaustive, h.answered⟩
  | case2 number stage within s hs t fault hg =>
    have hb : Action.Ends (Books scope start [] []) (Refused listener) (_, _) :=
      hg ▸ books_generation number h
    exact hb
  | case3 number stage within s hs t hg ih =>
    have hb : Action.Ends (Books scope start [] []) (Refused listener) (_, _) :=
      hg ▸ books_generation number h
    exact ih (Books.turn hb)

/-- The books of a run that begins: the start alone was come upon, and it waits. -/
theorem books_initial (scope : Scope) (start : Text) {trail : Trail (Heard σ)} (h : trail.Fresh) :
    Books scope start [] [start] (State.initial start trail) where
  once t := by
    have hm : t ∈ Visited.ofList [start] ↔ start = t := by simp [eq_comm]
    simp only [State.initial, h.taken, List.count_nil, List.count_singleton, beq_iff_eq, hm]
    omega
  start_mem := by simp [State.initial]
  reach t ht := by
    have : t = start := by simpa [State.initial] using ht
    rw [this]
    exact .start
  reach_ahead t ht := by simp at ht
  closed t ht := by simp [State.initial, h.taken] at ht
  tally v := by
    simp only [State.initial, h.taken, h.tally, outputs_nil, List.length_nil, Measure.total_nil]
    cases v <;> rfl
  told word := by simp [State.initial, Trail.told, h.taken, h.calls]
  answered call called := by simp [State.initial, h.calls] at called

theorem settled_run (scope : Scope) (listener : Listener σ) (start : Text) {trail : Trail (Heard σ)}
    (fresh : trail.Fresh) :
    (run scope listener.overheard start trail).Settled scope listener start :=
  settled_explore (books_initial scope start fresh)

/-- **A sequential run that ends well leaves nothing out**, whatever its listener would have refused. -/
theorem exhaustive_of_completed {trail : Trail (Heard σ)} (fresh : trail.Fresh)
    (completed : (run scope listener.overheard start trail).fault = none) :
    Exhaustive scope start (run scope listener.overheard start trail).state.trail := by
  have settled := settled_run scope listener start fresh
  rw [Outcome.Settled, completed] at settled
  exact settled.1

/-- **The fault of a sequential run is that of some call.** -/
theorem refused_of_run {trail : Trail (Heard σ)} (fresh : trail.Fresh) {fault : Fault}
    (failed : (run scope listener.overheard start trail).fault = some fault) :
    Refused listener (run scope listener.overheard start trail).state fault := by
  have settled := settled_run scope listener start fresh
  rw [Outcome.Settled, failed] at settled
  exact settled

/-- **A sequential run ends well exactly if every call was answered well.** -/
theorem fault_eq_none_iff {trail : Trail (Heard σ)} (fresh : trail.Fresh) :
    (run scope listener.overheard start trail).fault = none ↔
      ∀ call ∈ (run scope listener.overheard start trail).state.trail.calls, call.fault = none := by
  constructor
  · intro completed
    have settled := settled_run scope listener start fresh
    rw [Outcome.Settled, completed] at settled
    exact settled.2
  · intro answered
    cases failed : (run scope listener.overheard start trail).fault with
    | none => rfl
    | some fault =>
      obtain ⟨call, called, refused, -⟩ := refused_of_run fresh failed
      rw [answered call called] at refused
      cases refused

/-- **A sequential run whose listener refuses nothing ends well and leaves nothing out.** -/
theorem exhaustive_run (assents : listener.Assents) (scope : Scope) (start : Text)
    {trail : Trail (Heard σ)} (fresh : trail.Fresh) :
    (run scope listener.overheard start trail).fault = none ∧
      Exhaustive scope start (run scope listener.overheard start trail).state.trail := by
  have well : (run scope listener.overheard start trail).fault = none := by
    cases failed : (run scope listener.overheard start trail).fault with
    | none => rfl
    | some fault =>
      obtain ⟨call, -, -, heard, answer⟩ := refused_of_run fresh failed
      rw [assents] at answer
      cases answer
  exact ⟨well, exhaustive_of_completed fresh well⟩

end Loops

/-! ## The report -/

/-- **What a sequential run means.** It takes up the texts to be taken up and no others, each once. It
tells a word as often as there are pairs of such a text and a place among the rules that give it. And
the report counts texts, words, applications that changed nothing, and results that were of no use. -/
theorem run_takes_up_reach_once {e : Explorer} (sequential : e.strategy = .sequential)
    {listener : Listener σ} (assents : listener.Assents) (start : Text) (journal : Journal)
    (heard : σ) :
    let outcome := run e.scope listener.overheard start (e.openTrail start journal ([], heard))
    let ended := e.run listener.overheard start journal ([], heard)
    ended = e.afterSequential start outcome ∧
      outcome.state.trail.taken.Nodup ∧
      (∀ t, t ∈ outcome.state.trail.taken ↔ e.scope.Reach start t) ∧
      (∀ word, (ended.heard.1.map Call.word).count word =
        (e.scope.pairs start fun t r => e.scope.GivesWord t r ∧ r.rewrite t = word).ncard) ∧
      { t | e.scope.Reach start t }.Finite ∧
      ∃ report, ended.result = .ok report ∧
        report.expanded = { t | e.scope.Reach start t }.ncard ∧
        report.words = (e.scope.pairs start e.scope.GivesWord).ncard ∧
        report.unchanged = (e.scope.pairs start fun t r => r.rewrite t = t).ncard ∧
        report.dropped = (e.scope.pairs start fun t r =>
          r.rewrite t ≠ t ∧ ¬e.scope.GivesWord t r ∧ ¬e.scope.GivesLive t r).ncard := by
  intro outcome ended
  obtain ⟨hf, hx⟩ := exhaustive_run assents e.scope start (e.fresh_openTrail start journal heard)
  have hended : ended = e.afterSequential start outcome :=
    e.run_of_sequential start sequential _ _ _
  have result : ended.result =
      .ok (Report.ofTrail e.strategy start outcome.state.trail outcome.generations) := by
    rw [hended, e.result_afterSequential, hf]
    rfl
  refine ⟨hended, hx.nodup, hx.mem_taken, ?_, hx.finite_reach, _, result, ?_, ?_, ?_, ?_⟩
  · intro word
    rw [hended, e.heard_afterSequential]
    exact hx.count_told_eq_ncard word
  · exact congrArg _ hx.length_taken
  · exact congrArg _ (hx.ofVerdict_eq_ncard .word fun _ _ => Scope.verdict_eq_word_iff)
  · exact congrArg _ (hx.ofVerdict_eq_ncard .unchanged fun _ _ => Scope.verdict_eq_unchanged_iff)
  · exact congrArg _ (hx.ofVerdict_eq_ncard .dropped fun _ _ => Scope.verdict_eq_dropped_iff)

/-- From `S` a word is told as often as there are ways to make it of `S` or of `T`. -/
theorem run_takes_up_reach_once_converging :
    let e : Explorer := { scope := .converging, strategy := .sequential }
    let ended := e.run Listener.taking.overheard ['S'] {} ([], ())
    (∀ word, (ended.heard.1.map Call.word).count word =
        (e.scope.pairs ['S'] fun t r => e.scope.GivesWord t r ∧ r.rewrite t = word).ncard) ∧
      ∃ report, ended.result = .ok report ∧
        report.expanded = { t | e.scope.Reach ['S'] t }.ncard ∧
        report.words = (e.scope.pairs ['S'] e.scope.GivesWord).ncard := by
  intro e ended
  obtain ⟨-, -, -, told, -, report, result, expanded, words, -⟩ :=
    run_takes_up_reach_once (e := e) rfl Listener.assents_taking ['S'] {} ()
  exact ⟨told, report, result, expanded, words⟩

end Exploration.Sequential

end SemiThue
