/-
The generations of a sequential run are the levels of a breadth-first search.

A live text joins the next generation when it is come upon for the first time, and from then on it is known,
also to the rest of the generation that is still under way. So what is known while a generation is under way
is no level of anything: `Swept` says how far it is between what was known before and what is known
afterwards. Between two generations all is in order again, and `Level` says so: known are the texts at most
as far from the start as the generation that comes next, which holds those at just that distance, each once.

Words are told as the rules give them, in the order in which texts are taken up. That order is by distance,
so the distances of the texts that give the words never get smaller. A word may come of a text further away
than the nearest that gives it, but then it was told before.
-/
import SemiThue.Proofs.Chain
import SemiThue.Proofs.Sequential.Termination

set_option autoImplicit false

namespace SemiThue.Exploration

/-! ## Words in the order of the texts that give them -/

namespace Scope

variable {scope : Scope} {start : Text} {texts : List Text}

/-- **The applications that give words**, in the order in which texts are taken up. -/
def emissions (scope : Scope) (texts : List Text) : List Application :=
  (texts.flatMap scope.applications).filter fun a => a.verdict = .word

theorem outputs_word_eq (scope : Scope) (texts : List Text) :
    outputs .word (texts.flatMap scope.applications) =
      (scope.emissions texts).map fun a => a.step.output := rfl

theorem mem_emissions {a : Application} : a ∈ scope.emissions texts ↔
    ∃ t ∈ texts, ∃ rule ∈ scope.grammar.rules, scope.GivesWord t rule ∧ scope.apply t rule = a := by
  simp only [emissions, List.mem_filter, List.mem_flatMap, mem_applications, decide_eq_true_eq,
    ← verdict_eq_word_iff]
  constructor
  · rintro ⟨⟨t, taken, rule, mem, rfl⟩, word⟩
    exact ⟨t, taken, rule, mem, word, rfl⟩
  · rintro ⟨t, taken, rule, mem, word, rfl⟩
    exact ⟨⟨t, taken, rule, mem, rfl⟩, word⟩

/-- If texts are taken up in the order of their distances, so are they in giving words. -/
theorem pairwise_emissions
    (sorted : texts.Pairwise fun s t => scope.distance start s ≤ scope.distance start t) :
    (scope.emissions texts).Pairwise fun a b =>
      scope.distance start a.step.source ≤ scope.distance start b.step.source := by
  refine List.Pairwise.filter _ ?_
  rw [List.pairwise_flatMap]
  constructor
  · intro t _
    refine List.pairwise_of_forall_mem_list fun a ha b hb => ?_
    rw [source_of_mem_applications ha, source_of_mem_applications hb]
  · refine sorted.imp fun nearer a ha b hb => ?_
    rwa [source_of_mem_applications ha, source_of_mem_applications hb]

/-- **The first of the applications that give a word ends a shortest derivation of it**, if the texts to be
taken up are taken up in the order of their distances. Any derivation ends with some such application, which
is not before that one. -/
theorem isLeast_derivesIn_of_first (complete : ∀ t, t ∈ texts ↔ scope.Reach start t)
    (sorted : texts.Pairwise fun s t => scope.distance start s ≤ scope.distance start t)
    {before after : List Application} {a : Application}
    (cut : scope.emissions texts = before ++ a :: after)
    (first : ∀ b ∈ before, b.step.output ≠ a.step.output) :
    IsLeast { k | scope.DerivesIn start k a.step.output } (scope.distance start a.step.source + 1) := by
  have mem : a ∈ scope.emissions texts := by
    rw [cut]
    exact List.mem_append_right _ List.mem_cons_self
  obtain ⟨s, taken, rule, applied, word, rfl⟩ := mem_emissions.1 mem
  constructor
  · exact ⟨s, ((complete s).1 taken).chain_distance, word.1, rule, applied, rfl⟩
  · rintro (_ | k) derives
    · exact derives.elim
    obtain ⟨t, chain, changed, rule', applied', same⟩ := derives
    -- whether a rule gives a word shows in what it makes
    have word' : scope.GivesWord t rule' := by
      obtain ⟨-, good⟩ := word
      rw [← same] at changed
      rw [← output_apply, ← same] at good
      exact ⟨changed, good⟩
    have mem' : scope.apply t rule' ∈ scope.emissions texts :=
      mem_emissions.2 ⟨t, (complete t).2 chain.reach, rule', applied', word', rfl⟩
    have ordered := pairwise_emissions sorted
    rw [cut, List.pairwise_append, List.pairwise_cons] at ordered
    rw [cut, List.mem_append, List.mem_cons] at mem'
    have nearest : scope.distance start s ≤ scope.distance start t := by
      rcases mem' with earlier | this | later
      · exact absurd same (first _ earlier)
      · exact (congrArg (fun b => scope.distance start b.step.source) this).ge
      · exact ordered.2.1.1 _ later
    exact Nat.succ_le_succ (nearest.trans chain.distance_le)

end Scope

namespace Sequential

variable {σ : Type}

/-! ## A generation under way -/

/-- **A generation under way**: it began in a certain state, its texts give certain applications in all, and
some of them are still ahead. -/
structure Swept (s₀ : State (Heard σ)) (made ahead : List Application) (s : State (Heard σ)) : Prop where
  /-- What was known before is known. -/
  known : ∀ t ∈ s₀.visited, t ∈ s.visited
  /-- What was made is known, or ahead. -/
  visited : ∀ t, t ∈ s.visited ∨ t ∈ outputs .live ahead ↔ t ∈ s₀.visited ∨ t ∈ outputs .live made
  /-- No text was collected twice. -/
  nodup : s.next.Nodup
  /-- Those that are known and were not before were collected. -/
  mem_next : ∀ t, t ∈ s.next ↔ t ∈ s.visited ∧ t ∉ s₀.visited
  /-- Words are told in the order in which they are made. -/
  told : s.trail.told.reverse ++ outputs .word ahead = s₀.trail.told.reverse ++ outputs .word made

namespace Swept

variable {s₀ s : State (Heard σ)} {made ahead : List Application} {a : Application}

/-- Only known texts, next ones and words matter. -/
theorem congr (h : Swept s₀ made ahead s) {s' : State (Heard σ)} (visited : s'.visited = s.visited)
    (next : s'.next = s.next) (calls : s'.trail.calls = s.trail.calls) : Swept s₀ made ahead s' := by
  have told : s'.trail.told = s.trail.told := congrArg (List.map Call.word) calls
  exact ⟨visited ▸ h.known, visited ▸ h.visited, next ▸ h.nodup, next ▸ visited ▸ h.mem_next,
    told ▸ h.told⟩

theorem told_of_not_word (h : Swept s₀ made (a :: ahead) s) (hw : a.verdict ≠ .word) :
    s.trail.told.reverse ++ outputs .word ahead = s₀.trail.told.reverse ++ outputs .word made := by
  have := h.told
  rwa [outputs_cons, if_neg hw] at this

theorem visited_of_not_live (h : Swept s₀ made (a :: ahead) s) (hl : a.verdict ≠ .live) (t : Text) :
    t ∈ s.visited ∨ t ∈ outputs .live ahead ↔ t ∈ s₀.visited ∨ t ∈ outputs .live made := by
  have := h.visited t
  rwa [outputs_cons, if_neg hl] at this

theorem visited_of_live (h : Swept s₀ made (a :: ahead) s) (hl : a.verdict = .live) (t : Text) :
    t ∈ s.visited ∨ t = a.step.output ∨ t ∈ outputs .live ahead ↔
      t ∈ s₀.visited ∨ t ∈ outputs .live made := by
  have := h.visited t
  rwa [outputs_cons, if_pos hl, List.singleton_append, List.mem_cons] at this

/-- An application that gives neither a word nor a live text. -/
theorem passed (h : Swept s₀ made (a :: ahead) s) (hw : a.verdict ≠ .word) (hl : a.verdict ≠ .live) :
    Swept s₀ made ahead s :=
  ⟨h.known, h.visited_of_not_live hl, h.nodup, h.mem_next, h.told_of_not_word hw⟩

/-- A word is told. -/
theorem tell (h : Swept s₀ made (a :: ahead) s) (hw : a.verdict = .word) {s' : State (Heard σ)}
    (visited : s'.visited = s.visited) (next : s'.next = s.next)
    (told : s'.trail.told = a.step.output :: s.trail.told) : Swept s₀ made ahead s' where
  known := visited ▸ h.known
  visited := visited ▸ h.visited_of_not_live (by simp [hw])
  nodup := next ▸ h.nodup
  mem_next := next ▸ visited ▸ h.mem_next
  told := by
    have := h.told
    rwa [outputs_cons, if_pos hw, ← List.append_assoc, ← List.reverse_cons, ← told] at this

/-- A live text is collected, unless it is known. -/
theorem claim (h : Swept s₀ made (a :: ahead) s) (hl : a.verdict = .live) :
    Swept s₀ made ahead (s.claim a.step.output) := by
  have told := h.told_of_not_word (by simp [hl])
  have visited := h.visited_of_live hl
  unfold State.claim
  split
  · rename_i hc
    have old := Visited.claim?_eq_none_iff.1 hc
    refine ⟨h.known, fun t => ?_, h.nodup, h.mem_next, told⟩
    rw [← visited]
    constructor
    · exact Or.imp_right .inr
    · rintro (known | rfl | ahead)
      · exact .inl known
      · exact .inl old
      · exact .inr ahead
  · rename_i hc
    obtain ⟨new, rfl⟩ := Visited.claim?_eq_some_iff.1 hc
    refine ⟨fun t ht => Visited.mem_insert.2 (.inr (h.known t ht)), fun t => ?_,
      List.nodup_cons.2 ⟨fun mem => new ((h.mem_next _).1 mem).1, h.nodup⟩, fun t => ?_, told⟩
    · rw [← visited, Visited.mem_insert]
      tauto
    · rw [List.mem_cons, h.mem_next, Visited.mem_insert]
      -- what is new now was not known before the generation either
      have unknown : a.step.output ∉ s₀.visited := fun mem => new (h.known _ mem)
      constructor
      · rintro (rfl | ⟨mem, fresh⟩)
        · exact ⟨.inl rfl, unknown⟩
        · exact ⟨.inr mem, fresh⟩
      · rintro ⟨rfl | mem, fresh⟩
        · exact .inl rfl
        · exact .inr ⟨mem, fresh⟩

end Swept

section Loops

variable {scope : Scope} {listener : Listener σ} {s₀ s : State (Heard σ)} {made ahead : List Application}

/-- **One rule** takes its application from what is ahead. -/
theorem swept_applyRule {text : Text} {rule : Rule}
    (h : Swept s₀ made (scope.apply text rule :: ahead) s) :
    Action.Ends (Swept s₀ made ahead) (fun _ _ => True)
      (applyRule scope listener.overheard text rule s) := by
  have took : Swept s₀ made (scope.apply text rule :: ahead)
      { s with trail := s.trail.took (scope.apply text rule) } :=
    h.congr rfl rfl (by simp [Trail.calls])
  refine ends_applyRule took.passed took.claim fun hv => ?_
  simp only [Listener.overheard_apply]
  cases (listener s.outstanding (rule.rewrite text) s.trail.heard.2).2 with
  | none => exact h.tell hv rfl rfl rfl
  | some fault => trivial

/-- **One text**: all rules are applied to it. -/
theorem swept_expand {text : Text} (h : Swept s₀ made (scope.applications text ++ ahead) s) :
    Action.Ends (Swept s₀ made ahead) (fun _ _ => True) (expand scope listener.overheard text s) := by
  have rules := Action.each_ends (Q := fun _ _ => True)
    (P := fun rules s => Swept s₀ made (rules.map (scope.apply text) ++ ahead) s)
    (f := applyRule scope listener.overheard text)
    (fun rule rules s hs => swept_applyRule hs) (l := scope.grammar.rules)
    (h.congr rfl rfl rfl : Swept _ _ _ { s with trail := s.trail.opened text })
  exact ends_expand rules fun _ h => h.congr rfl rfl rfl

/-- **One generation**: all its texts are taken up. -/
theorem swept_generation (number : Nat) {stage : List Text} {s : State (Heard σ)}
    (ended : generation scope listener.overheard number stage s₀ = (s, none)) :
    Swept s₀ (stage.flatMap scope.applications) [] s := by
  have texts := Action.each_ends (Q := fun _ _ => True)
    (P := fun rest s => Swept s₀ (stage.flatMap scope.applications) (rest.flatMap scope.applications) s)
    (f := expand scope listener.overheard)
    (fun text rest s hs => swept_expand (by rwa [List.flatMap_cons] at hs)) (l := stage)
    (s := { s₀ with next := [], trail := s₀.trail.noted .debug (heading number stage.length) })
    ⟨fun _ => id, fun _ => Iff.rfl, List.nodup_nil, fun t => by simp, rfl⟩
  rw [generation] at ended
  rwa [ended] at texts

end Loops

/-! ## Between two generations -/

/-- **Between two generations**: what the loop has in hand is a level. -/
structure Level (scope : Scope) (start : Text) (l : Loop (Heard σ)) : Prop where
  /-- No text is in the generation twice. -/
  nodup : l.stage.Nodup
  /-- The generation holds the texts that are as far from the start as its number says. -/
  mem_stage : ∀ t, t ∈ l.stage ↔ scope.Reach start t ∧ scope.distance start t = l.number
  /-- Those that are no further away are known. -/
  mem_visited : ∀ t, t ∈ l.state.visited ↔ scope.Reach start t ∧ scope.distance start t ≤ l.number
  /-- Those that were taken up are nearer. -/
  taken : ∀ t ∈ l.state.trail.taken, scope.distance start t < l.number
  /-- They were taken up in the order of their distances. -/
  sorted : l.state.trail.taken.reverse.Pairwise fun s t => scope.distance start s ≤ scope.distance start t
  /-- What they gave was told in that order. -/
  told : l.state.trail.told.reverse =
    outputs .word (l.state.trail.taken.reverse.flatMap scope.applications)

variable {scope : Scope} {listener : Listener σ} {start : Text} {trail : Trail (Heard σ)}
  {l : Loop (Heard σ)}

theorem level_first (scope : Scope) (start : Text) (fresh : trail.Fresh) :
    Level scope start ⟨0, [start], .initial start trail⟩ where
  nodup := List.nodup_singleton start
  mem_stage t := by
    rw [List.mem_singleton]
    constructor
    · rintro rfl
      exact ⟨.start, Scope.distance_start⟩
    · rintro ⟨reach, zero⟩
      exact reach.eq_start_of_distance_eq_zero zero
  mem_visited t := by
    simp only [State.initial, Visited.mem_ofList, List.mem_singleton]
    constructor
    · rintro rfl
      exact ⟨.start, by simp⟩
    · rintro ⟨reach, zero⟩
      exact reach.eq_start_of_distance_eq_zero (Nat.le_zero.1 zero)
  taken t ht := by simp [State.initial, fresh.taken] at ht
  sorted := by simp [State.initial, fresh.taken]
  told := by simp [State.initial, Trail.told, fresh.taken, fresh.calls]

namespace Level

/-- What the texts of a generation give is known afterwards, and so is what is one further away. -/
theorem mem_visited_succ (h : Level scope start l) {s : State (Heard σ)}
    (swept : Swept l.state (l.stage.flatMap scope.applications) [] s) (t : Text) :
    t ∈ s.visited ↔ scope.Reach start t ∧ scope.distance start t ≤ l.number + 1 := by
  have known := swept.visited t
  rw [outputs_nil, mem_outputs_flatMap, h.mem_visited] at known
  simp only [List.not_mem_nil, or_false] at known
  rw [known]
  constructor
  · rintro (⟨reach, near⟩ | ⟨s, mem, live⟩)
    · exact ⟨reach, by omega⟩
    · obtain ⟨reach, far⟩ := (h.mem_stage s).1 mem
      exact ⟨reach.of_mem_outputs live, far ▸ reach.distance_le_succ live⟩
  · rintro ⟨reach, near⟩
    rcases Nat.le_succ_iff.1 near with nearer | away
    · exact .inl ⟨reach, nearer⟩
    · obtain ⟨s, before, far, live⟩ := reach.exists_nearer away
      exact .inr ⟨s, (h.mem_stage s).2 ⟨before, far⟩, live⟩

/-- **After a generation the next level is in hand.** -/
theorem turn (h : Level scope start l) {s : State (Heard σ)}
    (ended : generation scope listener.overheard l.number l.stage l.state = (s, none)) :
    Level scope start ⟨l.number + 1, s.next.reverse, s⟩ := by
  have swept := swept_generation l.number ended
  have visited := h.mem_visited_succ swept
  have took := taken_generation ended
  have order : s.trail.taken.reverse = l.state.trail.taken.reverse ++ l.stage := by
    rw [took, List.reverse_append, List.reverse_reverse]
  refine ⟨List.nodup_reverse.2 swept.nodup, fun t => ?_, visited, fun t mem => ?_, ?_, ?_⟩
  · rw [List.mem_reverse, swept.mem_next, visited, h.mem_visited]
    constructor
    · rintro ⟨⟨reach, near⟩, far⟩
      exact ⟨reach, Nat.le_antisymm near (Nat.lt_of_not_le fun nearer => far ⟨reach, nearer⟩)⟩
    · rintro ⟨reach, away⟩
      exact ⟨⟨reach, away.le⟩, fun ⟨_, nearer⟩ => by simp only at away; omega⟩
  · rw [took, List.mem_append, List.mem_reverse] at mem
    rcases mem with staged | before
    · exact Nat.lt_succ_of_le ((h.mem_stage t).1 staged).2.le
    · exact Nat.lt_succ_of_lt (h.taken t before)
  · rw [order, List.pairwise_append]
    refine ⟨h.sorted, List.pairwise_of_forall_mem_list fun t ht u hu => ?_, fun t ht u hu => ?_⟩
    · rw [((h.mem_stage t).1 ht).2, ((h.mem_stage u).1 hu).2]
    · rw [((h.mem_stage u).1 hu).2]
      exact (h.taken t (List.mem_reverse.1 ht)).le
  · have told := swept.told
    rw [outputs_nil, List.append_nil, h.told] at told
    rw [order, List.flatMap_append, outputs_append]
    exact told

end Level

/-- **Wherever the loop comes by, it has a level in hand.** -/
theorem Reached.level (fresh : trail.Fresh) (h : Reached scope listener.overheard start trail l) :
    Level scope start l := by
  induction h with
  | first => exact level_first scope start fresh
  | turn _ _ ended ih => exact ih.turn ended

/-! ## The end of the run -/

/-- **A run that ends well has gone through as many generations as there are distances**, and the greatest
of these is one less, since the start is at distance 0. -/
theorem exists_greatest_distance (fresh : trail.Fresh)
    (well : (run scope listener.overheard start trail).fault = none) :
    ∃ greatest, IsGreatest { k | ∃ t, scope.Reach start t ∧ scope.distance start t = k } greatest ∧
      (run scope listener.overheard start trail).generations = greatest + 1 := by
  have exhaustive := exhaustive_of_completed fresh well
  obtain ⟨l, reached, done, outcome⟩ := exists_reached_of_fault_eq_none well
  rw [outcome] at exhaustive
  obtain ⟨greatest, number⟩ := Nat.exists_eq_succ_of_ne_zero (reached.number_pos done).ne'
  refine ⟨greatest, ⟨?_, ?_⟩, outcome ▸ number⟩
  · obtain ⟨l', -, reached', rfl, some_text, -⟩ :=
      reached.exists_turn (number ▸ Nat.lt_succ_self greatest)
    obtain ⟨t, staged⟩ := List.exists_mem_of_ne_nil _ some_text
    exact ⟨t, ((reached'.level fresh).mem_stage t).1 staged⟩
  · rintro _ ⟨t, reach, rfl⟩
    have nearer := (reached.level fresh).taken t ((exhaustive.mem_taken t).2 reach)
    omega

/-- **The generations of a sequential run are levels.** Let no call of the run be refused. Wherever the loop
comes by, the generation that comes next holds the texts at the distance of its number, each once. There is
one generation for each distance up to the greatest; it takes up its texts in order, and tells the words in
the order in which they are made. So the applications that give the words are sorted by the distances of the
texts they are made to, and the first one that gives a certain word ends a shortest derivation of it. -/
theorem generations_are_levels {e : Explorer} (sequential : e.strategy = .sequential)
    {listener : Listener σ} {start : Text} {journal : Journal} {heard : σ}
    (answered : ∀ call ∈ (e.run listener.overheard start journal ([], heard)).heard.1,
      call.fault = none) :
    let trail := e.openTrail start journal ([], heard)
    let outcome := run e.scope listener.overheard start trail
    let ended := e.run listener.overheard start journal ([], heard)
    let distance := e.scope.distance start
    let emissions := e.scope.emissions outcome.state.trail.taken.reverse
    ended = e.afterSequential start outcome ∧
      (∀ l, Reached e.scope listener.overheard start trail l → l.stage.Nodup ∧
        ∀ t, t ∈ l.stage ↔ e.scope.Reach start t ∧ distance t = l.number) ∧
      (∃ report greatest, ended.result = .ok report ∧
        IsGreatest { k | ∃ t, e.scope.Reach start t ∧ distance t = k } greatest ∧
        report.generations = greatest + 1 ∧
        ∀ k ≤ greatest, ∃ l s, Reached e.scope listener.overheard start trail l ∧ l.number = k ∧
          generation e.scope listener.overheard k l.stage l.state = (s, none) ∧
          s.trail.taken.reverse = l.state.trail.taken.reverse ++ l.stage ∧
          s.trail.told.reverse = l.state.trail.told.reverse ++
            (e.scope.emissions l.stage).map fun a => a.step.output) ∧
      (ended.heard.1.map Call.word).reverse = emissions.map (fun a => a.step.output) ∧
      (∀ a ∈ emissions, e.scope.Chain start (distance a.step.source) a.step.source) ∧
      emissions.Pairwise (fun a b => distance a.step.source ≤ distance b.step.source) ∧
      ∀ before a after, emissions = before ++ a :: after →
        (∀ b ∈ before, b.step.output ≠ a.step.output) →
        IsLeast { k | e.scope.DerivesIn start k a.step.output } (distance a.step.source + 1) := by
  intro trail outcome ended distance emissions
  have fresh : trail.Fresh := e.fresh_openTrail start journal heard
  have after : ended = e.afterSequential start outcome := e.run_of_sequential start sequential _ _ _
  have well : outcome.fault = none := by
    rw [← e.reports_afterSequential_iff start, ← after]
    exact ((e.ends_run _ _ _ _).completed_iff.2 answered).reports
  obtain ⟨l, reached, done, last⟩ := exists_reached_of_fault_eq_none well
  obtain ⟨greatest, isGreatest, generations⟩ := exists_greatest_distance fresh well
  have exhaustive := exhaustive_of_completed fresh well
  have level := reached.level fresh
  have state : outcome.state = l.state := congrArg Outcome.state last
  have number : l.number = greatest + 1 := (congrArg Outcome.generations last).symm.trans generations
  have result : ended.result =
      .ok (Report.ofTrail e.strategy start outcome.state.trail outcome.generations) := by
    rw [after, e.result_afterSequential, well]
    rfl
  have complete : ∀ t, t ∈ outcome.state.trail.taken.reverse ↔ e.scope.Reach start t := by
    intro t
    rw [List.mem_reverse, exhaustive.mem_taken]
  have sorted : outcome.state.trail.taken.reverse.Pairwise fun s t => distance s ≤ distance t := by
    rw [state]
    exact level.sorted
  refine ⟨after, fun l reached => ⟨(reached.level fresh).nodup, (reached.level fresh).mem_stage⟩,
    ⟨_, greatest, result, isGreatest, ?_, fun k within => ?_⟩, ?_, fun a given => ?_,
    Scope.pairwise_emissions sorted,
    fun before a rest cut first => Scope.isLeast_derivesIn_of_first complete sorted cut first⟩
  · exact congrArg Nat.cast generations
  · have before : k < l.number := by omega
    obtain ⟨l', s, reached', rfl, -, turned⟩ := reached.exists_turn before
    have swept := (swept_generation l'.number turned).told
    rw [outputs_nil, List.append_nil, Scope.outputs_word_eq] at swept
    refine ⟨l', s, reached', rfl, turned, ?_, swept⟩
    rw [taken_generation turned, List.reverse_append, List.reverse_reverse]
  · rw [after, e.heard_afterSequential]
    have told := level.told
    rw [← state, Scope.outputs_word_eq] at told
    exact told
  · obtain ⟨t, taken, rule, -, -, rfl⟩ := Scope.mem_emissions.1 given
    exact ((complete t).1 taken).chain_distance

/-- From `S` the text `T` is one step away, so it is in the second generation, and the run has at least two. -/
theorem generations_are_levels_converging :
    let e : Explorer := { scope := .converging, strategy := .sequential }
    let trail := e.openTrail ['S'] {} (([], ()) : Heard Unit)
    let ended := e.run Listener.taking.overheard ['S'] {} ([], ())
    (∀ call ∈ ended.heard.1, call.fault = none) ∧
      (∃ l, Reached e.scope Listener.taking.overheard ['S'] trail l ∧ l.number = 1 ∧ ['T'] ∈ l.stage) ∧
      ∃ (report : Report) (greatest : Nat), ended.result = .ok report ∧ 1 ≤ greatest ∧
        report.generations = greatest + 1 := by
  intro e trail ended
  have answered : ∀ call ∈ ended.heard.1, call.fault = none :=
    (e.ends_run _ _ _ _).completed_iff.1
      (Explorer.completed_run_of_sequential rfl Listener.assents_taking _ _ _)
  obtain ⟨-, levels, ⟨report, greatest, result, isGreatest, generations, turns⟩, -⟩ :=
    generations_are_levels (e := e) rfl answered
  have live : e.scope.GivesLive ['S'] (.ofChar 'S' ['T']) :=
    ⟨by decide, by decide, 'T', by decide, by decide⟩
  have chain : e.scope.Chain ['S'] 1 ['T'] := .step .start (by decide) live
  have away : e.scope.distance ['S'] ['T'] = 1 := by
    have near := chain.distance_le
    have apart : e.scope.distance ['S'] ['T'] ≠ 0 := fun zero =>
      absurd (chain.reach.eq_start_of_distance_eq_zero zero) (by decide)
    omega
  have some_further : 1 ≤ greatest := isGreatest.2 ⟨['T'], chain.reach, away⟩
  obtain ⟨l, -, reached, number, -⟩ := turns 1 some_further
  exact ⟨answered, ⟨l, reached, number, ((levels l reached).2 ['T']).2 ⟨chain.reach, number ▸ away⟩⟩,
    report, greatest, result, some_further, generations⟩

end Sequential

end SemiThue.Exploration
