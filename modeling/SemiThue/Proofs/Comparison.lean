/-
Explorations of related scopes.

Two scopes over the same terminals can be compared. One is within the other if it has no more rules, no
greater bound and no greater margin (`Scope.Within`). A result that is live within the narrower scope is live
within the wider one, and a word is a word: neither the limit nor the bound can get in the way, and whether
there is something left to rewrite does not depend on the scope. Only what is dropped may be of use in the
wider scope. So whatever is to be taken up in the narrower scope is to be taken up in the wider one, though
perhaps at a smaller distance, and no word is lost. That holds for negative margins, too.

Two scopes that have the same rules in different order are within each other. The same texts are to be taken
up, at the same distances, and each of them gives the same applications, in another order. So a trail that is
exhaustive over one of the scopes is exhaustive over the other, and what is fixed by that does not depend on
the order: the words with their numbers, and every count of the report.
-/
import SemiThue.Proofs.Moments
import SemiThue.Proofs.Sequential.Levels

set_option autoImplicit false

namespace SemiThue.Exploration

/-- Applications in another order give the same results in another order. -/
theorem outputs_perm {l l' : List Application} (perm : l.Perm l') (v : Verdict) :
    (outputs v l).Perm (outputs v l') := (perm.filter _).map _

namespace Scope

/-- **One scope is within another**: it has the same terminals, and no more of anything else. -/
structure Within (scope scope' : Scope) : Prop where
  /-- The same characters are terminal. -/
  terminals : ∀ c : Char, [c] ∈ scope.grammar.terminals ↔ [c] ∈ scope'.grammar.terminals
  /-- There are no rules but those of the other. -/
  rules : ∀ rule ∈ scope.grammar.rules, rule ∈ scope'.grammar.rules
  /-- Words are no longer. -/
  bound : scope.grammar.bound ≤ scope'.grammar.bound
  /-- Texts are no longer in excess of that. -/
  margin : scope.margin ≤ scope'.margin

/-- **One scope reorders the rules of another**, and is like it otherwise. -/
structure Reorders (scope scope' : Scope) : Prop where
  /-- The same characters are terminal. -/
  terminals : ∀ c : Char, [c] ∈ scope.grammar.terminals ↔ [c] ∈ scope'.grammar.terminals
  /-- Every rule is there as often as in the other. -/
  rules : scope.grammar.rules.Perm scope'.grammar.rules
  /-- Words are as long. -/
  bound : scope.grammar.bound = scope'.grammar.bound
  /-- Texts are as long in excess of that. -/
  margin : scope.margin = scope'.margin

variable {scope scope' : Scope} {start t word : Text} {rule : Rule} {k : Nat}

/-! ## Wider scopes -/

namespace Within

theorem givesLive (h : scope.Within scope') (gives : scope.GivesLive t rule) :
    scope'.GivesLive t rule := by
  obtain ⟨changed, limit, c, mem, rewritable⟩ := gives
  have bound := h.bound
  have margin := h.margin
  exact ⟨changed, by omega, c, mem, mt (h.terminals c).2 rewritable⟩

theorem givesWord (h : scope.Within scope') (gives : scope.GivesWord t rule) :
    scope'.GivesWord t rule := by
  obtain ⟨changed, short, limit, terminal⟩ := gives
  have bound := h.bound
  have margin := h.margin
  exact ⟨changed, by omega, by omega, fun c mem => (h.terminals c).1 (terminal c mem)⟩

theorem chain (h : scope.Within scope') (chain : scope.Chain start k t) : scope'.Chain start k t := by
  induction chain with
  | start => exact .start
  | step _ mem live ih => exact ih.step (h.rules _ mem) (h.givesLive live)

theorem reach (h : scope.Within scope') (reach : scope.Reach start t) : scope'.Reach start t := by
  obtain ⟨k, chain⟩ := reach.exists_chain
  exact (h.chain chain).reach

/-- **A text gives no fewer words** within a wider scope. -/
theorem mem_word (h : scope.Within scope') (gives : word ∈ outputs .word (scope.applications t)) :
    word ∈ outputs .word (scope'.applications t) := by
  obtain ⟨rule, mem, word, rfl⟩ := mem_word_iff.1 gives
  exact mem_word_iff.2 ⟨rule, h.rules rule mem, h.givesWord word, rfl⟩

end Within

/-! ## Rules in another order -/

namespace Reorders

theorem symm (h : scope.Reorders scope') : scope'.Reorders scope :=
  ⟨fun c => (h.terminals c).symm, h.rules.symm, h.bound.symm, h.margin.symm⟩

theorem within (h : scope.Reorders scope') : scope.Within scope' :=
  ⟨h.terminals, fun _ mem => h.rules.mem_iff.1 mem, h.bound.le, h.margin.le⟩

theorem reach_iff (h : scope.Reorders scope') : scope.Reach start t ↔ scope'.Reach start t :=
  ⟨h.within.reach, h.symm.within.reach⟩

theorem distance_eq (h : scope.Reorders scope') (start t : Text) :
    scope.distance start t = scope'.distance start t := by
  have chains : { k | scope.Chain start k t } = { k | scope'.Chain start k t } :=
    Set.ext fun _ => ⟨h.within.chain, h.symm.within.chain⟩
  rw [distance, distance, chains]

/-- The distances that occur are the same. -/
theorem distances_eq (h : scope.Reorders scope') (start : Text) :
    { k | ∃ t, scope.Reach start t ∧ scope.distance start t = k } =
      { k | ∃ t, scope'.Reach start t ∧ scope'.distance start t = k } := by
  simp only [h.reach_iff, h.distance_eq]

/-- One rule gives the same, with the same verdict. -/
theorem apply_eq (h : scope.Reorders scope') (t : Text) (rule : Rule) :
    scope.apply t rule = scope'.apply t rule := by
  have isWord : ∀ u, scope.grammar.isWord u = scope'.grammar.isWord u := fun u => by
    rw [Bool.eq_iff_iff, Grammar.isWord_eq_true_iff, Grammar.isWord_eq_true_iff]
    simp only [h.terminals]
  rw [apply, apply, Grammar.judge, Grammar.judge, Grammar.limit, Grammar.limit, isWord, h.bound, h.margin]

theorem applications_perm (h : scope.Reorders scope') (t : Text) :
    (scope.applications t).Perm (scope'.applications t) := by
  rw [applications, funext (h.apply_eq t)]
  exact h.rules.map _

theorem yield_eq (h : scope.Reorders scope') (v : Verdict) : scope.yield v = scope'.yield v :=
  funext fun t => (outputs_perm (h.applications_perm t) v).length_eq

theorem yieldOf_eq (h : scope.Reorders scope') (word : Text) : scope.yieldOf word = scope'.yieldOf word :=
  funext fun t => (outputs_perm (h.applications_perm t) .word).count_eq word

end Reorders

end Scope

variable {σ τ : Type}

/-- **A trail that leaves nothing out leaves nothing out**, whatever the order of the rules. -/
theorem Exhaustive.reorders {scope scope' : Scope} {start : Text} {trail : Trail (Heard σ)}
    (h : Exhaustive scope start trail) (reorders : scope.Reorders scope') :
    Exhaustive scope' start trail where
  nodup := h.nodup
  mem_taken t := (h.mem_taken t).trans reorders.reach_iff
  tally v := reorders.yield_eq v ▸ h.tally v
  told word := reorders.yieldOf_eq word ▸ h.told word

/-! ## Runs -/

/-- A strategy that takes up no text twice: generation by generation, or on a pool in the atomic mode. -/
def Strategy.TakesUpOnce : Strategy → Prop
  | .sequential => True
  | .concurrent crew => crew.atomic = true

namespace Explorer

/-- **What a completed run leaves**, of a strategy that takes up no text twice. -/
structure Accomplishes (e : Explorer) (start : Text) (trail : Trail (Heard σ)) (generations : Nat)
    (ended : Ended (Heard σ)) : Prop where
  /-- Its trail leaves nothing out. -/
  exhaustive : Exhaustive e.scope start trail
  /-- The listener is in the state in which the trail has it. -/
  heard : ended.heard = trail.heard
  /-- The run ends with the report on that trail. -/
  result : ended.result = .ok (Report.ofTrail e.strategy start trail generations)
  /-- A sequential run has one generation for each distance. -/
  levels : e.strategy = .sequential → ∃ greatest,
    IsGreatest { k | ∃ t, e.scope.Reach start t ∧ e.scope.distance start t = k } greatest ∧
      generations = greatest + 1
  /-- A pool knows no generations. -/
  pooled : e.strategy ≠ .sequential → generations = 0

variable {e e' : Explorer} {listener : Listener σ} {listener' : Listener τ} {start : Text}
  {journal journal' : Journal} {heard : σ} {heard' : τ} {ended : Ended (Heard σ)}
  {ended' : Ended (Heard τ)} {trail : Trail (Heard σ)} {trail' : Trail (Heard τ)}
  {generations generations' : Nat}

theorem Ends.exists_accomplishes (run : e.Ends listener.overheard start journal ([], heard) ended)
    (once : e.strategy.TakesUpOnce) (completed : ended.Completed) :
    ∃ trail generations, e.Accomplishes start trail generations ended := by
  have fresh := e.fresh_openTrail start journal heard
  cases run with
  | sequential strategy =>
    have well := (e.reports_afterSequential_iff start _).1 completed.reports
    refine ⟨_, _, Sequential.exhaustive_of_completed fresh well, e.heard_afterSequential start _, ?_,
      fun _ => Sequential.exists_greatest_distance fresh well, fun pooled => absurd strategy pooled⟩
    rw [e.result_afterSequential, well]
    rfl
  | @concurrent crew strategy p reachable finished =>
    have same := (endsAs_afterPool reachable finished).obliging completed
    have calm := same.calm completed.reports
    have reachable' : Pool.Reachable (e.plan crew listener.obliging start).overheard
        (e.openTrail start journal ([], heard)) p := same.reachable
    have atomic : crew.atomic = true := by rwa [strategy] at once
    refine ⟨_, 0, reachable'.exhaustive listener.assents_obliging.stays fresh atomic finished calm,
      e.heard_afterPool start p, ?_, fun sequential => ?_, fun _ => rfl⟩
    · rw [e.result_afterPool, calm.failure]
      rfl
    · rw [strategy] at sequential
      cases sequential

/-- Both runs go through as many generations, if both are sequential or both on a pool. -/
theorem Accomplishes.generations_eq (h : e.Accomplishes start trail generations ended)
    (h' : e'.Accomplishes start trail' generations' ended') (reorders : e.scope.Reorders e'.scope)
    (alike : e.strategy = .sequential ↔ e'.strategy = .sequential) : generations = generations' := by
  by_cases sequential : e.strategy = .sequential
  · obtain ⟨greatest, isGreatest, rfl⟩ := h.levels sequential
    obtain ⟨greatest', isGreatest', rfl⟩ := h'.levels (alike.1 sequential)
    rw [reorders.distances_eq] at isGreatest
    rw [isGreatest.unique isGreatest']
  · rw [h.pooled sequential, h'.pooled (mt alike.2 sequential)]

/-- **No word is lost in a wider scope**, even if the run over the narrower one was broken off. -/
theorem Ends.told_of_within (run : e.Ends listener.overheard start journal ([], heard) ended)
    (run' : e'.Ends listener'.overheard start journal' ([], heard') ended')
    (completed' : ended'.Completed) (within : e.scope.Within e'.scope) {word : Text}
    (told : word ∈ ended.heard.1.map Call.word) : word ∈ ended'.heard.1.map Call.word := by
  obtain ⟨trail, leaves⟩ := run.exists_leaves
  rw [leaves.heard_eq] at told
  obtain ⟨t, taken, gives⟩ := leaves.passes.exists_taken_of_mem_told told
  have reach := leaves.passes.reach_of_mem_taken taken
  exact (run'.mem_told_iff completed').2 ⟨t, within.reach reach, within.mem_word gives⟩

/-- **Runs over related scopes from the same start.** Let no call of the second run be refused. If its scope
is wider, it tells all words that the first one tells, whatever the strategies. If its scope has the rules of
the first one in another order, no call of that one is refused either, and both strategies take up no text
twice, then the same words are told equally often, and the reports agree in all counts; in the number of
generations, too, if both strategies know generations or neither does. -/
theorem runs_over_related_scopes (run : e.Ends listener.overheard start journal ([], heard) ended)
    (run' : e'.Ends listener'.overheard start journal' ([], heard') ended')
    (answered' : ∀ call ∈ ended'.heard.1, call.fault = none) :
    (e.scope.Within e'.scope →
      ∀ word ∈ ended.heard.1.map Call.word, word ∈ ended'.heard.1.map Call.word) ∧
    (e.scope.Reorders e'.scope → e.strategy.TakesUpOnce → e'.strategy.TakesUpOnce →
      (∀ call ∈ ended.heard.1, call.fault = none) →
        (ended.heard.1.map Call.word).Perm (ended'.heard.1.map Call.word) ∧
        ∃ report report', ended.result = .ok report ∧ ended'.result = .ok report' ∧
          report.words = report'.words ∧ report.expanded = report'.expanded ∧
          report.dropped = report'.dropped ∧ report.unchanged = report'.unchanged ∧
          ((e.strategy = .sequential ↔ e'.strategy = .sequential) →
            report.generations = report'.generations)) := by
  have completed' := run'.completed_iff.2 answered'
  refine ⟨fun within word told => run.told_of_within run' completed' within told, ?_⟩
  intro reorders once once' answered
  obtain ⟨trail, generations, left⟩ := run.exists_accomplishes once (run.completed_iff.2 answered)
  obtain ⟨trail', generations', left'⟩ := run'.exists_accomplishes once' completed'
  have same := left.exhaustive.reorders reorders
  refine ⟨?_, _, _, left.result, left'.result, ?_, ?_, ?_, ?_, fun alike => ?_⟩
  · rw [left.heard, left'.heard]
    exact same.told_perm left'.exhaustive
  · exact congrArg Nat.cast (same.ofVerdict_eq left'.exhaustive .word)
  · exact congrArg Nat.cast (same.taken_perm left'.exhaustive).length_eq
  · exact congrArg Nat.cast (same.ofVerdict_eq left'.exhaustive .dropped)
  · exact congrArg Nat.cast (same.ofVerdict_eq left'.exhaustive .unchanged)
  · exact congrArg Nat.cast (left.generations_eq left' reorders alike)

/-- The scope `Scope.converging` with its rules in the opposite order. -/
def convergingReversed : Scope :=
  { Scope.converging with
    grammar := { Scope.converging.grammar with rules := Scope.converging.grammar.rules.reverse } }

/-- A scope with a rule more than `Scope.converging`, for longer words, and with a greater margin. -/
def convergingWider : Scope where
  grammar :=
    { Scope.converging.grammar with
      bound := 2
      rules := .ofChar 'T' ['T', 'T'] :: Scope.converging.grammar.rules
      bound_pos := Nat.two_pos }
  margin := 3

/-- The word `a` is told in the wider scope as well. With the rules reversed it is told as often as before,
after as many generations. -/
theorem runs_over_related_scopes_converging :
    let e : Explorer := { scope := .converging, strategy := .sequential }
    let reversed : Explorer := { scope := convergingReversed, strategy := .sequential }
    let wider : Explorer := { scope := convergingWider, strategy := .sequential }
    let told (x : Explorer) := (x.run Listener.taking.overheard ['S'] {} ([], ())).heard.1.map Call.word
    e.scope.Within wider.scope ∧ e.scope.Reorders reversed.scope ∧
      ['a'] ∈ told e ∧ ['a'] ∈ told wider ∧ (told e).Perm (told reversed) ∧
      ∃ report report', (e.run Listener.taking.overheard ['S'] {} ([], ())).result = .ok report ∧
        (reversed.run Listener.taking.overheard ['S'] {} ([], ())).result = .ok report' ∧
        report.words = report'.words ∧ report.generations = report'.generations := by
  intro e reversed wider told
  have within : e.scope.Within wider.scope :=
    ⟨fun _ => Iff.rfl, fun _ mem => List.mem_cons_of_mem _ mem, by decide, by decide⟩
  have reorders : e.scope.Reorders reversed.scope :=
    ⟨fun _ => Iff.rfl, (List.reverse_perm _).symm, rfl, rfl⟩
  have completed (x : Explorer) (sequential : x.strategy = .sequential) :
      (x.run Listener.taking.overheard ['S'] {} ([], ())).Completed :=
    completed_run_of_sequential sequential Listener.assents_taking _ _ _
  have run (x : Explorer) := x.ends_run Listener.taking.overheard ['S'] {} ([], ())
  have answered (x : Explorer) (sequential : x.strategy = .sequential) :=
    (run x).completed_iff.1 (completed x sequential)
  have some_word : ['a'] ∈ told e :=
    ((run e).mem_told_iff (completed e rfl)).2 ⟨['S'], .start, by decide⟩
  have more := (runs_over_related_scopes (run e) (run wider) (answered wider rfl)).1 within
  obtain ⟨perm, report, report', result, result', words, -, -, -, generations⟩ :=
    (runs_over_related_scopes (run e) (run reversed) (answered reversed rfl)).2 reorders trivial trivial
      (answered e rfl)
  exact ⟨within, reorders, some_word, more _ some_word, perm, report, report', result, result', words,
    generations Iff.rfl⟩

end Explorer

end SemiThue.Exploration
