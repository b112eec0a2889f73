/-
Grammars whose characters were renamed.

No character means anything to an exploration: rules compare characters with those of their left sides,
verdicts compare texts with one another and look their characters up among the terminals, and the loop
looks texts up among those it has come upon. All of this survives an injective renaming. So a run over the
renamed grammar, from the renamed start, is the old run with every text renamed, in the same order and with
the same counts.

The two runs go side by side. `State.Renamed` says how a state of the one and a state of the other belong
together, and every part of the loop leads from such a pair to such a pair and ends alike, in a fault or
not (`Action.Alike`). What the two listeners make of the words is left open, but for a relation between
their states that every call keeps; that the log of the calls is renamed along is an instance of it.
-/
import SemiThue.Proofs.Runs
import SemiThue.Proofs.Text.Order
import SemiThue.Proofs.Text.Rename

set_option autoImplicit false

namespace SemiThue

variable {f : Char → Char}

/-! ## Rules and grammars -/

/-- The rule with both sides renamed. -/
def Rule.rename (f : Char → Char) (r : Rule) : Rule where
  left := r.left.rename f
  right := r.right.rename f
  left_ne_nil := Text.rename_ne_nil r.left_ne_nil

/-- **A renamed rule makes the renamed text** of a renamed text. -/
theorem Rule.rewrite_rename (injective : Function.Injective f) (r : Rule) (text : Text) :
    (r.rename f).rewrite (text.rename f) = (r.rewrite text).rename f :=
  Text.replace_rename injective text r.left r.right

namespace Grammar

/-- The grammar with every terminal and every rule renamed. Its terminals are put in order again. -/
def rename (f : Char → Char) (g : Grammar) : Grammar where
  bound := g.bound
  terminals := normalTerminals (g.terminals.map (Text.rename f))
  rules := g.rules.map (Rule.rename f)
  bound_pos := g.bound_pos

theorem mem_normalTerminals {terminals : List Text} {t : Text} :
    t ∈ normalTerminals terminals ↔ t ∈ terminals := by
  rw [normalTerminals, Text.mem_withoutRepeats, (Text.sort_perm terminals).mem_iff]

/-- Only the members of a list of terminals matter. -/
theorem normalTerminals_congr {terminals terminals' : List Text}
    (same : ∀ t, t ∈ terminals ↔ t ∈ terminals') :
    normalTerminals terminals = normalTerminals terminals' :=
  Text.withoutRepeats_sort_congr same

/-- **To rename a grammar is to make a grammar of renamed parts**, and to be refused for the same bounds. -/
theorem make_rename (f : Char → Char) (bound : Int) (terminals : List Text) (rules : List Rule) :
    make bound (terminals.map (Text.rename f)) (rules.map (Rule.rename f)) =
      (make bound terminals rules).map (rename f) := by
  have normal : normalTerminals (terminals.map (Text.rename f)) =
      normalTerminals ((normalTerminals terminals).map (Text.rename f)) :=
    normalTerminals_congr fun t => by simp only [List.mem_map, mem_normalTerminals]
  simp only [make, normal]
  split <;> rfl

/-- Words stay words, and nothing else becomes one. -/
theorem isWord_rename (injective : Function.Injective f) (g : Grammar) (t : Text) :
    (g.rename f).isWord (t.rename f) = g.isWord t := by
  have terminal (c : Char) : (g.rename f).isTerminal [f c] = g.isTerminal [c] := by
    rw [Bool.eq_iff_iff, isTerminal, isTerminal, List.contains_iff_mem, List.contains_iff_mem]
    refine mem_normalTerminals.trans ⟨fun mem => ?_, fun mem => List.mem_map_of_mem mem⟩
    obtain ⟨t, mem, same⟩ := List.mem_map.1 mem
    have same : t.rename f = Text.rename f [c] := same
    rwa [← Text.rename_injective injective same]
  simp only [isWord, Text.rename, List.all_map, Function.comp_def, terminal]

/-- **The verdict on a renamed text** is the verdict on the text. -/
theorem judge_rename (injective : Function.Injective f) (g : Grammar) (margin : Int)
    (source output : Text) :
    (g.rename f).judge margin (source.rename f) (output.rename f) = g.judge margin source output := by
  have same : (output.rename f == source.rename f) = (output == source) := by
    rw [Bool.eq_iff_iff, beq_iff_eq, beq_iff_eq, (Text.rename_injective injective).eq_iff]
  have limit : (g.rename f).limit margin = g.limit margin := rfl
  have bound : (g.rename f).bound = g.bound := rfl
  simp only [judge, same, limit, bound, Text.length_rename, isWord_rename injective]

end Grammar

/-! ## Actions that go alike -/

namespace Action

variable {α β σ τ : Type}

/-- Two actions have ended alike: in the same fault or both well, and in states that belong together. -/
def Alike (R : σ → τ → Prop) (done : σ × Option Fault) (done' : τ × Option Fault) : Prop :=
  R done.1 done'.1 ∧ done'.2 = done.2

/-- **Rows of actions that go alike one by one** go alike as a whole. -/
theorem each_alike {R : σ → τ → Prop} {a : α → Action σ} {b : β → Action τ} {g : α → β}
    (h : ∀ x s t, R s t → Alike R (a x s) (b (g x) t)) (l : List α) {s : σ} {t : τ} (hr : R s t) :
    Alike R (each a l s) (each b (l.map g) t) := by
  induction l generalizing s t with
  | nil => exact ⟨hr, rfl⟩
  | cons x l ih =>
    obtain ⟨related, same⟩ := h x s t hr
    cases ha : a x s with
    | mk s' fault =>
      cases hb : b (g x) t with
      | mk t' fault' =>
        rw [ha, hb] at related same
        cases same
        cases fault with
        | none =>
          rw [List.map_cons, each_cons_of_none ha, each_cons_of_none hb]
          exact ih related
        | some fault =>
          rw [List.map_cons, each_cons_of_some ha, each_cons_of_some hb]
          exact ⟨related, rfl⟩

end Action

namespace Exploration

variable {σ τ : Type} {R : σ → τ → Prop}

/-! ## Scopes and listeners -/

/-- The scope over the renamed grammar. -/
def Scope.rename (f : Char → Char) (s : Scope) : Scope := { s with grammar := s.grammar.rename f }

/-- The application of a renamed rule to a renamed text. -/
def Application.rename (f : Char → Char) (a : Application) : Application where
  step := ⟨a.step.source.rename f, a.step.rule.rename f, a.step.output.rename f⟩
  verdict := a.verdict

theorem Scope.apply_rename (injective : Function.Injective f) (s : Scope) (text : Text) (rule : Rule) :
    (s.rename f).apply (text.rename f) (rule.rename f) = (s.apply text rule).rename f := by
  simp only [apply, rename, Application.rename, Rule.rewrite_rename injective,
    Grammar.judge_rename injective]

/-- The call with the renamed word. -/
def Call.rename (f : Char → Char) (call : Call) : Call := { call with word := call.word.rename f }

/-- **Listeners that answer alike**, the second one to renamed words, as long as their states belong
together. -/
def Listener.Alike (f : Char → Char) (R : σ → τ → Prop) (listener : Listener σ) (listener' : Listener τ) :
    Prop :=
  ∀ n word heard heard', R heard heard' →
    Action.Alike R (listener n word heard) (listener' n (word.rename f) heard')

/-- The logs of two listeners have the same calls, but for the renaming, and their states belong together. -/
def Heard.Renamed (f : Char → Char) (R : σ → τ → Prop) (heard : Heard σ) (heard' : Heard τ) : Prop :=
  heard'.1 = heard.1.map (Call.rename f) ∧ R heard.2 heard'.2

/-- Listeners that answer alike do so when they are overheard. -/
theorem Listener.Alike.overheard {listener : Listener σ} {listener' : Listener τ}
    (alike : listener.Alike f R listener') :
    listener.overheard.Alike f (Heard.Renamed f R) listener'.overheard := by
  intro n word heard heard' ⟨log, related⟩
  obtain ⟨related', same⟩ := alike n word _ _ related
  refine ⟨⟨?_, related'⟩, same⟩
  simp only [overheard_apply, log, same, List.map_cons]
  rfl

/-! ## Trails -/

/-- **The trails of two runs belong together**: texts are renamed, counts are the same. The graph and the
journal are left aside; no step of a run looks at them. -/
structure Trail.Renamed (f : Char → Char) (R : σ → τ → Prop) (t : Trail σ) (t' : Trail τ) : Prop where
  /-- The renamed texts were taken up, in the same order. -/
  taken : t'.taken = t.taken.map (Text.rename f)
  /-- The counts are the same. -/
  tally : t'.tally = t.tally
  /-- The states of the listeners belong together. -/
  heard : R t.heard t'.heard

namespace Trail.Renamed

variable {t : Trail σ} {t' : Trail τ}

theorem opened (h : t.Renamed f R t') (text : Text) :
    (t.opened text).Renamed f R (t'.opened (text.rename f)) where
  taken := by simp only [taken_opened, h.taken, List.map_cons]
  tally := h.tally
  heard := h.heard

theorem took (h : t.Renamed f R t') (a : Application) : (t.took a).Renamed f R (t'.took (a.rename f)) where
  taken := by simpa only [taken_took] using h.taken
  tally := by simp only [tally_took, h.tally, Application.rename]
  heard := by simpa only [heard_took] using h.heard

theorem noted (h : t.Renamed f R t') (level : Level) (message message' : String) :
    (t.noted level message).Renamed f R (t'.noted level message') :=
  ⟨h.taken, h.tally, h.heard⟩

theorem tell {listener : Listener σ} {listener' : Listener τ} (alike : listener.Alike f R listener')
    (h : t.Renamed f R t') (n : Outstanding) (word : Text) :
    Action.Alike (Trail.Renamed f R) (Trail.tell listener n word t)
      (Trail.tell listener' n (word.rename f) t') := by
  obtain ⟨heard, same⟩ := alike n word _ _ h.heard
  simp only [tell_eq]
  exact ⟨⟨h.taken, h.tally, heard⟩, same⟩

end Trail.Renamed

/-! ## The loop -/

namespace Sequential

variable {scope : Scope} {listener : Listener σ} {listener' : Listener τ} {s : State σ} {s' : State τ}

/-- **The states of two runs belong together.** -/
structure State.Renamed (f : Char → Char) (R : σ → τ → Prop) (s : State σ) (s' : State τ) : Prop where
  /-- The second run has come upon a renamed text when the first one has come upon the text. -/
  visited : ∀ t : Text, t.rename f ∈ s'.visited ↔ t ∈ s.visited
  /-- The next generation is the renamed one, in the same order. -/
  next : s'.next = s.next.map (Text.rename f)
  /-- As many texts are outstanding. -/
  outstanding : s'.outstanding = s.outstanding
  /-- The trails belong together. -/
  trail : s.trail.Renamed f R s'.trail

theorem State.Renamed.claim (injective : Function.Injective f) (h : s.Renamed f R s') (t : Text) :
    (s.claim t).Renamed f R (s'.claim (t.rename f)) := by
  by_cases known : t ∈ s.visited
  · have known' := (h.visited t).2 known
    simp only [State.claim, Visited.claim?_eq_none_iff.2 known, Visited.claim?_eq_none_iff.2 known']
    exact h
  · have unknown' := (h.visited t).not.2 known
    simp only [State.claim, Visited.claim?_eq_some_iff.2 ⟨known, rfl⟩,
      Visited.claim?_eq_some_iff.2 ⟨unknown', rfl⟩]
    refine ⟨fun u => ?_, ?_, ?_, h.trail⟩
    · rw [Visited.mem_insert, Visited.mem_insert, h.visited,
        (Text.rename_injective injective).eq_iff]
    · rw [h.next, List.map_cons]
    · rw [h.outstanding]

variable (scope) in
theorem applyRule_rename (injective : Function.Injective f) (alike : listener.Alike f R listener')
    (text : Text) (rule : Rule) (h : s.Renamed f R s') :
    Action.Alike (State.Renamed f R) (applyRule scope listener text rule s)
      (applyRule (scope.rename f) listener' (text.rename f) (rule.rename f) s') := by
  have took := h.trail.took (scope.apply text rule)
  have verdict : ((scope.apply text rule).rename f).verdict = (scope.apply text rule).verdict := rfl
  simp only [applyRule, Scope.apply_rename injective, verdict]
  cases (scope.apply text rule).verdict with
  | word =>
    obtain ⟨trail, same⟩ := took.tell alike s.outstanding (scope.apply text rule).step.output
    rw [← h.outstanding] at same trail
    exact ⟨⟨h.visited, h.next, h.outstanding, h.outstanding ▸ trail⟩, h.outstanding ▸ same⟩
  | live =>
    have counted : State.Renamed f R { s with trail := s.trail.took (scope.apply text rule) }
        { s' with trail := s'.trail.took ((scope.apply text rule).rename f) } :=
      ⟨h.visited, h.next, h.outstanding, took⟩
    exact ⟨counted.claim injective _, rfl⟩
  | dropped => exact ⟨⟨h.visited, h.next, h.outstanding, took⟩, rfl⟩
  | unchanged => exact ⟨⟨h.visited, h.next, h.outstanding, took⟩, rfl⟩

variable (scope) in
theorem expand_rename (injective : Function.Injective f) (alike : listener.Alike f R listener')
    (text : Text) (h : s.Renamed f R s') :
    Action.Alike (State.Renamed f R) (expand scope listener text s)
      (expand (scope.rename f) listener' (text.rename f) s') := by
  have opened : State.Renamed f R { s with trail := s.trail.opened text }
      { s' with trail := s'.trail.opened (text.rename f) } :=
    ⟨h.visited, h.next, h.outstanding, h.trail.opened text⟩
  have rules := Action.each_alike
    (fun rule _ _ => applyRule_rename scope injective alike text rule)
    scope.grammar.rules opened
  have renamed : (scope.rename f).grammar.rules = scope.grammar.rules.map (Rule.rename f) := rfl
  simp only [expand, renamed]
  -- the text is done if the rules went well, and then one text less is outstanding in both runs
  generalize Action.each (applyRule scope listener text) scope.grammar.rules _ = done at rules ⊢
  generalize Action.each (applyRule (scope.rename f) listener' (text.rename f)) _ _ = done' at rules ⊢
  obtain ⟨u, fault⟩ := done
  obtain ⟨u', fault'⟩ := done'
  obtain ⟨related, rfl⟩ : State.Renamed f R u u' ∧ fault' = fault := rules
  cases fault' with
  | some fault => exact ⟨related, rfl⟩
  | none =>
    refine ⟨⟨related.visited, related.next, ?_, related.trail⟩, rfl⟩
    simp only [related.outstanding]

variable (scope) in
theorem generation_rename (injective : Function.Injective f) (alike : listener.Alike f R listener')
    (number : Nat) (stage : List Text) (h : s.Renamed f R s') :
    Action.Alike (State.Renamed f R) (generation scope listener number stage s)
      (generation (scope.rename f) listener' number (stage.map (Text.rename f)) s') :=
  Action.each_alike (fun text _ _ => expand_rename scope injective alike text) stage
    ⟨h.visited, rfl, h.outstanding, h.trail.noted _ _ _⟩

/-- **The outcomes of two runs belong together**: their states do, and they ended alike after as many
generations. -/
structure Outcome.Renamed (f : Char → Char) (R : σ → τ → Prop) (o : Outcome σ) (o' : Outcome τ) : Prop where
  /-- The states belong together. -/
  state : o.state.Renamed f R o'.state
  /-- As many generations were completed. -/
  generations : o'.generations = o.generations
  /-- The runs ended in the same fault, or both well. -/
  fault : o'.fault = o.fault

/-- The whole loop, from any generation on. -/
theorem explore_rename (injective : Function.Injective f) (alike : listener.Alike f R listener')
    {start : Text} {number : Nat} {stage stage' : List Text} (same : stage' = stage.map (Text.rename f))
    {within : ∀ t ∈ stage, t.Over (scope.grammar.charactersFrom start)}
    {within' : ∀ t ∈ stage', t.Over ((scope.rename f).grammar.charactersFrom (start.rename f))}
    (h : s.Renamed f R s') :
    (explore scope listener start number stage within s).Renamed f R
      (explore (scope.rename f) listener' (start.rename f) number stage' within' s') := by
  fun_induction explore scope listener start number stage within s generalizing s' stage' with
  | case1 number within s =>
    rw [explore, dif_pos (by rw [same]; rfl)]
    exact ⟨h, rfl, rfl⟩
  | case2 number stage within s some_text u fault ended =>
    have alike' := generation_rename scope injective alike number stage h
    rw [ended, ← same] at alike'
    rw [explore, dif_neg (by rwa [same, List.map_eq_nil_iff])]
    split
    · rename_i u' fault' ended'
      rw [ended'] at alike'
      exact ⟨alike'.1, rfl, alike'.2⟩
    · rename_i u' ended'
      rw [ended'] at alike'
      cases alike'.2
  | case3 number stage within s some_text u ended ih =>
    have alike' := generation_rename scope injective alike number stage h
    rw [ended, ← same] at alike'
    rw [explore.eq_def (scope.rename f), dif_neg (by rwa [same, List.map_eq_nil_iff])]
    split
    · rename_i u' fault' ended'
      rw [ended'] at alike'
      cases alike'.2
    · rename_i u' ended'
      rw [ended'] at alike'
      exact ih (by rw [alike'.1.next, List.map_reverse]) alike'.1

/-- **The run over the renamed grammar goes along with the run.** -/
theorem run_rename (injective : Function.Injective f) (alike : listener.Alike f R listener')
    (scope : Scope) (start : Text) {trail : Trail σ} {trail' : Trail τ} (h : trail.Renamed f R trail') :
    (run scope listener start trail).Renamed f R
      (run (scope.rename f) listener' (start.rename f) trail') := by
  refine explore_rename injective alike rfl ⟨fun t => ?_, rfl, rfl, h⟩
  simp only [State.initial, Visited.mem_ofList, List.mem_singleton,
    (Text.rename_injective injective).eq_iff]

end Sequential

/-! ## Runs of an explorer -/

/-- The explorer of the renamed grammar. -/
def Explorer.rename (f : Char → Char) (e : Explorer) : Explorer := { e with scope := e.scope.rename f }

namespace Explorer

/-- **Renaming the characters renames the run.** Let the characters be renamed by an injective map. The
renamed grammar is what is made of the renamed terminals and rules. A renamed rule makes the renamed text of
a renamed text, and the verdicts on renamed texts are the same. A sequential run over the renamed grammar
from the renamed start tells the renamed words, in the same order, with as many texts outstanding, and is
answered with the same faults, if its listener answers as the other one does. It ends in the same fault, or
with a report on the same counts. If no word is refused, there is a report. -/
theorem renaming_commutes_with_run (injective : Function.Injective f) {e : Explorer}
    (sequential : e.strategy = .sequential) {listener : Listener σ} {listener' : Listener τ}
    (alike : listener.Alike f R listener') (start : Text) (journal journal' : Journal) {heard : σ}
    {heard' : τ} (related : R heard heard') :
    let ended := e.run listener.overheard start journal ([], heard)
    let ended' := (e.rename f).run listener'.overheard (start.rename f) journal' ([], heard')
    (∀ bound terminals rules, Grammar.make bound terminals rules = .ok e.scope.grammar →
        Grammar.make bound (terminals.map (Text.rename f)) (rules.map (Rule.rename f)) =
          .ok (e.rename f).scope.grammar) ∧
      (∀ rule text, (Rule.rename f rule).rewrite (Text.rename f text) = (rule.rewrite text).rename f) ∧
      (∀ source output, (e.rename f).scope.grammar.judge (e.rename f).scope.margin
        (Text.rename f source) (Text.rename f output) =
          e.scope.grammar.judge e.scope.margin source output) ∧
      ended'.heard.1 = ended.heard.1.map (Call.rename f) ∧ R ended.heard.2 ended'.heard.2 ∧
      ended'.result = ended.result.map
        (fun report => { report with start := .fitting (start.rename f) }) ∧
      (listener.Assents → ∃ report, ended.result = .ok report) := by
  intro ended ended'
  refine ⟨fun bound terminals rules made => ?_, fun rule => rule.rewrite_rename injective,
    e.scope.grammar.judge_rename injective e.scope.margin, ?_⟩
  · rw [Grammar.make_rename, made]
    rfl
  have opened : (e.openTrail start journal (([], heard) : Heard σ)).Renamed f (Heard.Renamed f R)
      ((e.rename f).openTrail (start.rename f) journal' ([], heard')) := ⟨rfl, rfl, rfl, related⟩
  have outcomes : Sequential.Outcome.Renamed f _ _ (Sequential.run (e.rename f).scope _ _ _) :=
    Sequential.run_rename injective alike.overheard e.scope start opened
  have run : ended = e.afterSequential start _ :=
    e.run_of_sequential start sequential listener.overheard journal ([], heard)
  have run' : ended' = (e.rename f).afterSequential (start.rename f) _ :=
    (e.rename f).run_of_sequential (start.rename f) sequential listener'.overheard journal' ([], heard')
  obtain ⟨log, related'⟩ := outcomes.state.trail.heard
  refine ⟨?_, ?_, ?_, fun assents => ?_⟩
  · rw [run, run', heard_afterSequential, heard_afterSequential]
    exact log
  · rw [run, run', heard_afterSequential, heard_afterSequential]
    exact related'
  · rw [run, run', result_afterSequential, result_afterSequential, outcomes.fault]
    cases (Sequential.run e.scope listener.overheard start _).fault with
    | some fault => rfl
    | none =>
      refine congrArg Except.ok ?_
      simp only [Report.ofTrail, Trail.expanded, outcomes.state.trail.taken, List.length_map,
        outcomes.state.trail.tally, outcomes.generations]
      rfl
  · exact (completed_run_of_sequential sequential assents start journal heard).reports

/-- The renaming that exchanges the start of `Scope.converging` with its terminal. -/
def exchange (c : Char) : Char := Equiv.swap 'S' 'a' c

/-- With `S` and `a` exchanged the words `a` become words `S`: as many of them, and they are kept in the same
order by a listener that keeps words. -/
theorem renaming_commutes_with_run_converging :
    let e : Explorer := { scope := .converging, strategy := .sequential }
    let ended := e.run collecting.overheard ['S'] {} ([], [])
    let ended' := (e.rename exchange).run collecting.overheard ['a'] {} ([], [])
    Function.Injective exchange ∧
      ended'.heard.2 = ended.heard.2.map (Text.rename exchange) ∧
      ['a'] ∈ ended.heard.1.map Call.word ∧ ['S'] ∈ ended'.heard.1.map Call.word ∧
      ∃ report report', ended.result = .ok report ∧ ended'.result = .ok report' ∧
        report'.words = report.words ∧ report'.expanded = report.expanded ∧
        report'.dropped = report.dropped ∧ report'.unchanged = report.unchanged ∧
        report'.generations = report.generations := by
  intro e ended ended'
  have injective : Function.Injective exchange := (Equiv.swap 'S' 'a').injective
  have alike : collecting.Alike exchange (fun words words' => words' = words.map (Text.rename exchange))
      collecting := by
    rintro n word words _ rfl
    exact ⟨rfl, rfl⟩
  have start : Text.rename exchange ['S'] = ['a'] := by decide
  have nothing : ([] : List Text) = [].map (Text.rename exchange) := rfl
  obtain ⟨-, -, -, calls, kept, result, some_report⟩ :=
    renaming_commutes_with_run injective (e := e) rfl alike ['S'] {} {} nothing
  rw [start] at calls kept result
  have assents : Listener.Assents collecting := fun _ _ _ => rfl
  obtain ⟨report, made⟩ := some_report assents
  have completed : ended.Completed := completed_run_of_sequential rfl assents _ _ _
  have told : ['a'] ∈ ended.heard.1.map Call.word :=
    ((e.ends_run collecting.overheard ['S'] {} ([], [])).mem_told_iff completed).2 ⟨['S'], .start, by decide⟩
  obtain ⟨call, mem, word⟩ := List.mem_map.1 told
  refine ⟨injective, kept, told, ?_, report, { report with start := .fitting ['a'] }, made, ?_, rfl, rfl,
    rfl, rfl, rfl⟩
  · have told' : Call.rename exchange call ∈ ended'.heard.1 := calls ▸ List.mem_map_of_mem mem
    have word' : Text.rename exchange ['a'] = ['S'] := by decide
    exact List.mem_map.2 ⟨_, told', (congrArg (Text.rename exchange) word).trans word'⟩
  · exact result.trans (by rw [made]; rfl)

end Explorer

end Exploration

end SemiThue
