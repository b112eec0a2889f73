/-
The loop of the sequential strategy ends, and how much it takes up until then.

Nothing that the loop has in hand gets smaller. Generations may grow for a long time, rules may make texts
longer, and undo each other. What bounds it is the number of texts that there are to take up at all. Apart
from the start these are texts within the limit, and rewriting brings in no characters but those of right
sides: they are among finitely many candidates. No text is taken up twice, so at every moment of a run at
most one text more than there are candidates was taken up (`Passes.expanded_le`). Every turn of the loop
takes up at least one text, so there were no more turns than that (`Reached.number_le`).
-/
import SemiThue.Proofs.Derivation.Shortest
import SemiThue.Proofs.Moments
import SemiThue.Proofs.Sequential.Overheard

set_option autoImplicit false

namespace SemiThue

theorem Grammar.mem_charactersFrom {g : Grammar} {start : Text} {c : Char} :
    c ∈ g.charactersFrom start ↔ c ∈ start ∨ ∃ rule ∈ g.rules, c ∈ rule.right := by
  rw [charactersFrom, List.mem_append, List.mem_flatMap]

namespace Exploration

/-! ## Candidates -/

namespace Scope

variable {scope : Scope} {start t : Text}

/-- **What there is to take up at most**, besides the start: the texts within the limit over the characters
of the start and of the right sides. -/
def candidates (scope : Scope) (start : Text) : Set Text :=
  { t | (t.length : Int) ≤ scope.grammar.bound + scope.margin ∧
    ∀ c ∈ t, c ∈ start ∨ ∃ rule ∈ scope.grammar.rules, c ∈ rule.right }

theorem mem_candidates_iff :
    t ∈ scope.candidates start ↔ t ∈ textsWithin (scope.grammar.charactersFrom start) scope.limit := by
  rw [mem_textsWithin, Text.Over]
  simp only [Grammar.mem_charactersFrom]
  exact Iff.rfl

theorem finite_candidates (scope : Scope) (start : Text) : (scope.candidates start).Finite :=
  (List.finite_toSet _).subset fun _ ht => mem_candidates_iff.1 ht

/-- A text is never shorter than a limit below zero. -/
theorem candidates_eq_empty (below : (scope.grammar.bound : Int) + scope.margin < 0) :
    scope.candidates start = ∅ := by
  refine Set.eq_empty_of_forall_notMem fun t ht => ?_
  have within : (t.length : Int) ≤ scope.grammar.bound + scope.margin := ht.1
  omega

/-- Rewriting brings in no characters but those of right sides. -/
theorem Reach.over (h : scope.Reach start t) : t.Over (scope.grammar.charactersFrom start) := by
  induction h with
  | start => exact scope.grammar.over_start start
  | step _ mem _ ih => exact Grammar.over_rewrite mem ih

/-- **What is to be taken up is the start or a candidate.** -/
theorem Reach.eq_or_mem_candidates (h : scope.Reach start t) : t = start ∨ t ∈ scope.candidates start := by
  rcases h.eq_or_continues with same | continues
  · exact .inl same
  · exact .inr ⟨continues.1, fun c mem => Grammar.mem_charactersFrom.1 (h.over c mem)⟩

/-- There are few texts to be taken up. -/
theorem length_le_of_reach {texts : List Text} (nodup : texts.Nodup)
    (reach : ∀ t ∈ texts, scope.Reach start t) :
    texts.length ≤ 1 + (scope.candidates start).ncard := by
  have among : (texts.toFinset : Set Text) ⊆ insert start (scope.candidates start) := by
    intro t ht
    exact (reach t (by simpa using ht)).eq_or_mem_candidates
  calc texts.length = (texts.toFinset : Set Text).ncard := by
        rw [Set.ncard_coe_finset, List.toFinset_card_of_nodup nodup]
    _ ≤ (insert start (scope.candidates start)).ncard :=
        Set.ncard_le_ncard among ((finite_candidates scope start).insert start)
    _ ≤ 1 + (scope.candidates start).ncard := by
        rw [Nat.add_comm]
        exact Set.ncard_insert_le _ _

end Scope

namespace Sequential

variable {σ : Type} {scope : Scope} {listener : Listener σ} {start : Text} {trail : Trail σ}

/-! ## What is taken up -/

/-- **At every moment** no text was taken up twice, and none that was not to be taken up. -/
theorem Passes.taken {u : State σ} (fresh : trail.taken = [])
    (passes : Passes scope listener start trail u) :
    u.trail.taken.Nodup ∧ ∀ t ∈ u.trail.taken, scope.Reach start t := by
  -- a single worker in the atomic mode shows the same trail
  let plan : Plan σ := ⟨scope, listener, true, 1, start, Nat.one_pos⟩
  obtain ⟨p, leads, -, silent⟩ := Pool.shows_passes plan passes
  have reachable : Pool.Reachable plan trail p := Pool.Reachable.initial.leads leads
  have sound := reachable.sound fresh
  obtain ⟨same, -⟩ := Trail.silent_eq_iff.1 silent
  rw [← same]
  exact ⟨reachable.nodup_taken fresh rfl, fun t ht => sound.reach t (sound.taken t ht)⟩

theorem Passes.expanded_le {u : State σ} (fresh : trail.taken = [])
    (passes : Passes scope listener start trail u) :
    u.trail.expanded ≤ 1 + (scope.candidates start).ncard := by
  obtain ⟨nodup, reach⟩ := passes.taken fresh
  exact Scope.length_le_of_reach nodup reach

/-! ## What one turn takes up -/

theorem trail_claim (s : State σ) (t : Text) : (s.claim t).trail = s.trail := by
  unfold State.claim
  split <;> rfl

theorem taken_applyRule (text : Text) (rule : Rule) (s : State σ) :
    (applyRule scope listener text rule s).1.trail.taken = s.trail.taken := by
  have took := Trail.taken_took s.trail (scope.apply text rule)
  simp only [applyRule]
  cases (scope.apply text rule).verdict with
  | live =>
    rw [trail_claim]
    exact took
  | _ => exact took

theorem taken_expand (scope : Scope) (listener : Listener σ) (text : Text) (s : State σ) :
    (expand scope listener text s).1.trail.taken = text :: s.trail.taken := by
  have rules : (Action.each (applyRule scope listener text) scope.grammar.rules
      { s with trail := s.trail.opened text }).1.trail.taken = text :: s.trail.taken :=
    Action.each_keeps (P := fun u : State σ => u.trail.taken = text :: s.trail.taken)
      (fun rule _ u hu => (taken_applyRule text rule u).trans hu) rfl
  unfold expand
  split <;> rename_i heq <;> rwa [heq] at rules

/-- **A generation that ends well takes up its texts.** -/
theorem taken_generation {number : Nat} {stage : List Text} {s t : State σ}
    (ended : generation scope listener number stage s = (t, none)) :
    t.trail.taken = stage.reverse ++ s.trail.taken := by
  have texts := Action.each_ends (f := expand scope listener) (Q := fun _ _ => True)
    (P := fun rest u => rest.reverse ++ u.trail.taken = stage.reverse ++ s.trail.taken)
    (l := stage) (s := { s with next := [], trail := s.trail.noted .debug (heading number stage.length) })
    (fun text rest u hu => ?_) rfl
  · rw [generation] at ended
    rw [ended] at texts
    exact texts
  · cases hx : expand scope listener text u with
    | mk v fault =>
      have taken := taken_expand scope listener text u
      rw [hx] at taken
      cases fault with
      | some fault => trivial
      | none =>
        change rest.reverse ++ v.trail.taken = _
        rw [taken, ← hu, List.reverse_cons, List.append_assoc, List.singleton_append]

/-- Every turn of the loop took up some text. -/
theorem Reached.number_le {l : Loop σ} (reached : Reached scope listener start trail l) :
    l.number ≤ l.state.trail.expanded := by
  induction reached with
  | first => exact Nat.zero_le _
  | @turn l t _ some_text ended ih =>
    have more : 0 < l.stage.length := List.length_pos_iff.2 some_text
    show l.number + 1 ≤ t.trail.taken.length
    rw [taken_generation ended, List.length_append, List.length_reverse]
    have ih : l.number ≤ l.state.trail.taken.length := ih
    omega

/-- A loop that has nothing left has made at least one turn. -/
theorem Reached.number_pos {l : Loop σ} (reached : Reached scope listener start trail l)
    (done : l.stage = []) : 0 < l.number := by
  cases reached with
  | first => cases done
  | turn => exact Nat.succ_pos _

/-! ## The end of the loop -/

/-- **The loop ends**, if the listener refuses nothing. -/
theorem exists_reached_done (assents : listener.Assents) (trail : Trail (Heard σ)) (fresh : trail.Fresh) :
    ∃ l, Reached scope listener start trail.forget l ∧ l.stage = [] ∧
      run scope listener start trail.forget = ⟨l.state, l.number, none⟩ := by
  refine exists_reached_of_fault_eq_none ?_
  rw [run_forget]
  exact (exhaustive_run assents scope start fresh).1

/-- **The loop of a sequential run ends**, whatever the grammar, the start and the margin, if the listener
refuses nothing, and the run has its report. At every moment at most one text more than there are candidates
was taken up, and the loop has made no more turns than texts were taken up. If the limit is below zero, the
start is the only text that is taken up. -/
theorem loop_ends_within_candidates {e : Explorer} (sequential : e.strategy = .sequential)
    {listener : Listener σ} (assents : listener.Assents) (start : Text) (journal : Journal) (heard : σ) :
    let trail := e.openTrail start journal heard
    let most := 1 + (e.scope.candidates start).ncard
    (e.scope.candidates start).Finite ∧
      (∀ u, Passes e.scope listener start trail u → u.trail.expanded ≤ most) ∧
      (∀ l, Reached e.scope listener start trail l → l.number ≤ l.state.trail.expanded) ∧
      ∃ l report, Reached e.scope listener start trail l ∧ l.stage = [] ∧
        run e.scope listener start trail = ⟨l.state, l.number, none⟩ ∧
        (e.run listener start journal heard).result = .ok report ∧
        report.generations = l.number ∧ report.expanded = l.state.trail.expanded ∧
        report.expanded ≤ most ∧
        ((e.scope.grammar.bound : Int) + e.scope.margin < 0 → report.expanded = 1) := by
  intro trail most
  obtain ⟨l, reached, done, outcome⟩ : ∃ l, Reached e.scope listener start trail l ∧ l.stage = [] ∧
      run e.scope listener start trail = ⟨l.state, l.number, none⟩ :=
    exists_reached_done assents _ (e.fresh_openTrail start journal heard)
  have few : l.state.trail.expanded ≤ most := (Passes.between reached).expanded_le rfl
  have result : (e.run listener start journal heard).result =
      .ok (Report.ofTrail e.strategy start l.state.trail l.number) := by
    rw [e.run_of_sequential start sequential, outcome, e.result_afterSequential]
    rfl
  refine ⟨Scope.finite_candidates _ _, fun u passes => passes.expanded_le rfl,
    fun l reached => reached.number_le, l, _, reached, done, outcome, result, rfl, rfl,
    Int.ofNat_le.2 few, fun below => ?_⟩
  have some_text := Nat.lt_of_lt_of_le (reached.number_pos done) reached.number_le
  have none_but_start : most = 1 := by
    simp only [most, Scope.candidates_eq_empty below, Set.ncard_empty]
  have one : l.state.trail.expanded = 1 := by omega
  exact congrArg Nat.cast one

/-- A scope in which `S` and `T` are made of each other, at double the length, by a rule that stands twice. -/
def doubling (margin : Int) : Scope where
  grammar :=
    { bound := 2
      terminals := [['a']]
      rules := [.ofChar 'S' ['T'], .ofChar 'T' ['S', 'S'], .ofChar 'T' ['S', 'S']]
      bound_pos := Nat.two_pos }
  margin

/-- The loop ends for a margin above the bound as for one that puts the limit below zero. -/
theorem loop_ends_within_candidates_doubling :
    let e : Explorer := { scope := doubling 30, strategy := .sequential }
    let e' : Explorer := { scope := doubling (-3), strategy := .sequential }
    (∃ report, (e.run Listener.taking ['S'] {} ()).result = .ok report ∧
        report.expanded ≤ (1 + (e.scope.candidates ['S']).ncard : Nat)) ∧
      ∃ report, (e'.run Listener.taking ['S'] {} ()).result = .ok report ∧ report.expanded = 1 := by
  intro e e'
  obtain ⟨-, -, -, _, report, -, -, -, result, -, -, few, -⟩ :=
    loop_ends_within_candidates (e := e) rfl Listener.assents_taking ['S'] {} ()
  obtain ⟨-, -, -, _, report', -, -, -, result', -, -, -, one⟩ :=
    loop_ends_within_candidates (e := e') rfl Listener.assents_taking ['S'] {} ()
  exact ⟨⟨report, result, few⟩, report', result', one (by decide)⟩

end Sequential

end Exploration

end SemiThue
