/-
Derivations from the graph of a completed run.

What a derivation should be is put down without graphs (`Scope.Derives`): applications of rules, each to
what the one before it gave, where everything before the last result is within the limit and still holds
something to rewrite. The start is excused from that, and so is the last result.

A complete chart has such a derivation of every node, and no shorter one exists. The edges of a shortest
path make one: what lies between its ends is the source of an edge, so it is to be taken up, and if it were
the start the path could begin there. Conversely every derivation of a node gives a path that is no longer.
An application that changed nothing is left out, and any other one is productive, the last one because
its result is a node: the verdict on a result is a matter of the result alone, once it differs from what it
was made of.

So the derivation of a node is as long as the shortest there is, which depends on the scope and on the
start only. Which one it is of that length depends on the order of the edges, so on the run.
-/
import SemiThue.Proofs.Derivation.Search
import SemiThue.Proofs.Derivation.Words

set_option autoImplicit false

namespace SemiThue.Exploration

open SemiThue.Derivation (Graph Step Linked Path Shortest)

/-! ## What a derivation is -/

namespace Scope

variable {scope : Scope} {start t : Text} {steps : List Step}

/-- A text that a derivation can go on from: within the limit, and there is something to rewrite. -/
def Continues (scope : Scope) (t : Text) : Prop :=
  (t.length : Int) ≤ scope.grammar.bound + scope.margin ∧ ∃ c ∈ t, [c] ∉ scope.grammar.terminals

/-- **A derivation of a text from the start.** -/
structure Derives (scope : Scope) (start : Text) (steps : List Step) (t : Text) : Prop where
  /-- Each step begins where the one before it ended, the first one at the start. -/
  linked : Linked start steps t
  /-- Each step is the application of a rule. -/
  applied : ∀ s ∈ steps, s.rule ∈ scope.grammar.rules ∧ s.output = s.rule.rewrite s.source
  /-- What comes before the last result can be gone on from. -/
  continues : ∀ s ∈ steps.dropLast, scope.Continues s.output

/-- **A shortest derivation**, none of whose steps is idle. -/
structure ShortestDerivation (scope : Scope) (start : Text) (steps : List Step) (t : Text) : Prop
    extends scope.Derives start steps t where
  /-- Each step makes a text of some other. -/
  changes : ∀ s ∈ steps, s.output ≠ s.source
  /-- No derivation of the same text is shorter. -/
  shortest : ∀ steps', scope.Derives start steps' t → steps.length ≤ steps'.length

/-- Shortest derivations are equally long. -/
theorem ShortestDerivation.length_eq {steps' : List Step} (h : scope.ShortestDerivation start steps t)
    (h' : scope.ShortestDerivation start steps' t) : steps.length = steps'.length :=
  Nat.le_antisymm (h.shortest steps' h'.toDerives) (h'.shortest steps h.toDerives)

theorem givesLive_iff {text : Text} {rule : Rule} : scope.GivesLive text rule ↔
    rule.rewrite text ≠ text ∧ scope.Continues (rule.rewrite text) := Iff.rfl

/-- What is to be taken up is the start, or can be gone on from. -/
theorem Reach.eq_or_continues (h : scope.Reach start t) : t = start ∨ scope.Continues t := by
  cases h with
  | start => exact .inl rfl
  | step _ _ live => exact .inr (givesLive_iff.1 live).2

/-- An application that gives something else which can be gone on from is productive. -/
theorem Reach.productive_of_continues {text : Text} {rule : Rule} (h : scope.Reach start text)
    (mem : rule ∈ scope.grammar.rules) (changed : rule.rewrite text ≠ text)
    (continues : scope.Continues (rule.rewrite text)) : scope.Productive start (scope.apply text rule) where
  reach := h
  applied := mem_applications.2 ⟨rule, mem, rfl⟩
  verdict := .inr (verdict_eq_live_iff.2 (givesLive_iff.2 ⟨changed, continues⟩))

/-- **Whether an application is productive shows in its result**: if another productive one gave the same,
all that is to be asked is whether this one changed anything. -/
theorem Productive.of_output_eq {a : Application} (h : scope.Productive start a) {text : Text} {rule : Rule}
    (reach : scope.Reach start text) (mem : rule ∈ scope.grammar.rules)
    (changed : rule.rewrite text ≠ text) (same : a.step.output = rule.rewrite text) :
    scope.Productive start (scope.apply text rule) := by
  obtain ⟨rule', -, applied⟩ := h.exists_rule
  have output : rule'.rewrite a.step.source = rule.rewrite text := by
    rw [← same, applied]
    rfl
  have verdict := h.verdict
  rw [applied, verdict_eq_word_iff, verdict_eq_live_iff, GivesWord, GivesLive, output] at verdict
  refine ⟨reach, mem_applications.2 ⟨rule, mem, rfl⟩, ?_⟩
  rw [verdict_eq_word_iff, verdict_eq_live_iff]
  exact verdict.imp (fun word => ⟨changed, word.2⟩) fun live => ⟨changed, live.2⟩

end Scope

/-- **Asked for a derivation of a node to which there is a path, a chart gives a shortest path.** -/
theorem Scope.Charts.exists_shortest {scope : Scope} {start t : Text} {path : List Step} {g : Graph}
    (h : scope.Charts start g) (node : g.hasNode t = true) (isPath : Path g.edges start path t) :
    ∃ steps, g.derivation t = .ok steps ∧ Shortest g.edges start steps t := by
  have found := Derivation.path?_spec g.leaving_eq g.arriving_eq start t
  simp only [Graph.derivation, h.root, node, if_true]
  split at found <;> rename_i heq <;> rw [heq]
  · exact absurd isPath (found path)
  · exact ⟨_, rfl, found⟩

/-! ## Derivations in complete charts -/

namespace Scope.ChartsAll

variable {scope : Scope} {start t : Text} {steps : List Step} {g : Graph}

/-- Where a productive application leads, a path can be continued. -/
theorem exists_path_succ (h : scope.ChartsAll start g) {a : Application}
    (productive : scope.Productive start a) (path : Path g.edges start steps a.step.source) :
    ∃ steps', Path g.edges start steps' a.step.output ∧ steps'.length = steps.length + 1 := by
  obtain ⟨e, mem, source, output⟩ := Graph.hasEdge_iff.1 (h.complete a productive)
  refine ⟨steps ++ [e], path.append ⟨⟨source, output⟩, ?_⟩, List.length_append⟩
  simpa using mem

/-- There is a path to whatever is to be taken up. -/
theorem exists_path_of_reach (h : scope.ChartsAll start g) (reach : scope.Reach start t) :
    ∃ steps, Path g.edges start steps t := by
  induction reach with
  | start => exact ⟨[], rfl, by simp⟩
  | step reach mem live ih =>
    obtain ⟨steps, path⟩ := ih
    obtain ⟨steps', path', -⟩ := h.exists_path_succ
      (reach.productive_of_continues mem live.1 (givesLive_iff.1 live).2) path
    exact ⟨steps', path'⟩

/-- **There is a path to every node.** -/
theorem exists_path (h : scope.ChartsAll start g) (node : g.hasNode t = true) :
    ∃ steps, Path g.edges start steps t := by
  rcases h.hasNode_iff.1 node with rfl | ⟨a, productive, rfl⟩
  · exact ⟨[], rfl, by simp⟩
  · obtain ⟨steps, path⟩ := h.exists_path_of_reach productive.reach
    obtain ⟨steps', path', -⟩ := h.exists_path_succ productive path
    exact ⟨steps', path'⟩

/-- The rest of a derivation, after a path to something that is to be taken up. The induction is on the
rest; the path grows as the derivation goes on, unless a step changes nothing. -/
theorem exists_path_le_of_rest (h : scope.ChartsAll start g) (node : g.hasNode t = true)
    {rest before : List Step} {u : Text} (reach : scope.Reach start u)
    (path : Path g.edges start before u) (linked : Linked u rest t)
    (applied : ∀ s ∈ rest, s.rule ∈ scope.grammar.rules ∧ s.output = s.rule.rewrite s.source)
    (continues : ∀ s ∈ rest.dropLast, scope.Continues s.output) :
    ∃ path, Path g.edges start path t ∧ path.length ≤ before.length + rest.length := by
  induction rest generalizing u before with
  | nil =>
    obtain rfl := linked
    exact ⟨before, path, Nat.le_refl _⟩
  | cons s rest ih =>
    obtain ⟨rfl, linked⟩ := linked
    obtain ⟨mem, output⟩ := applied s List.mem_cons_self
    rw [output] at linked
    have applied_rest := fun s' hs' => applied s' (List.mem_cons_of_mem _ hs')
    have continues_rest : ∀ s' ∈ rest.dropLast, scope.Continues s'.output := by
      intro s' hs'
      have later := List.ne_nil_of_mem (List.mem_of_mem_dropLast hs')
      rw [List.dropLast_cons_of_ne_nil later] at continues
      exact continues s' (List.mem_cons_of_mem _ hs')
    by_cases idle : s.rule.rewrite s.source = s.source
    · rw [idle] at linked
      obtain ⟨steps, path, short⟩ := ih reach path linked applied_rest continues_rest
      exact ⟨steps, path, Nat.le_succ_of_le short⟩
    cases rest with
    | cons s' rest =>
      -- more follows, so it can be gone on from the result
      have live : scope.Continues (s.rule.rewrite s.source) := by
        rw [← output]
        exact continues s List.mem_cons_self
      obtain ⟨longer, path, length⟩ := h.exists_path_succ
        (reach.productive_of_continues mem idle live) path
      obtain ⟨steps, path, short⟩ := ih (reach.step mem (givesLive_iff.2 ⟨idle, live⟩)) path linked
        applied_rest continues_rest
      rw [length] at short
      exact ⟨steps, path, by rw [List.length_cons]; omega⟩
    | nil =>
      -- the result is the last one, and a node
      obtain rfl := linked
      rcases h.hasNode_iff.1 node with same | ⟨a, productive, same⟩
      · rw [same]
        exact ⟨[], ⟨rfl, by simp⟩, Nat.zero_le _⟩
      · obtain ⟨longer, path, length⟩ := h.exists_path_succ
          (productive.of_output_eq reach mem idle same) path
        exact ⟨longer, path, Nat.le_of_eq length⟩

/-- **No derivation of a node is shorter than every path.** -/
theorem exists_path_le (h : scope.ChartsAll start g) (node : g.hasNode t = true)
    (derives : scope.Derives start steps t) :
    ∃ path, Path g.edges start path t ∧ path.length ≤ steps.length := by
  have empty : Path g.edges start [] start := ⟨rfl, by simp⟩
  obtain ⟨path, isPath, short⟩ := h.exists_path_le_of_rest node .start empty derives.linked derives.applied
    derives.continues
  exact ⟨path, isPath, by simpa using short⟩

/-- **A shortest path is a shortest derivation.** -/
theorem shortestDerivation (h : scope.ChartsAll start g) (node : g.hasNode t = true)
    (shortest : Shortest g.edges start steps t) : scope.ShortestDerivation start steps t := by
  obtain ⟨path, minimal⟩ := shortest
  refine ⟨⟨path.1, fun s hs => ?_, fun s hs => ?_⟩, fun s hs => ?_, fun steps' derives => ?_⟩
  · obtain ⟨-, -, a, productive, rfl⟩ := h.edges s (path.2 s hs)
    obtain ⟨rule, mem, applied⟩ := productive.exists_rule
    rw [applied]
    exact ⟨mem, rfl⟩
  · -- an edge begins where the step ended
    obtain ⟨next, rest, behind, shorter⟩ := path.exists_behind hs
    obtain ⟨-, -, a, productive, rfl⟩ := h.edges next (behind.2 next List.mem_cons_self)
    rw [← behind.1.1]
    refine productive.reach.eq_or_continues.resolve_left fun same => ?_
    -- back at the start, so the rest would do
    rw [← behind.1.1, same] at behind
    exact Nat.not_le_of_lt shorter (minimal _ behind)
  · obtain ⟨-, -, a, productive, rfl⟩ := h.edges s (path.2 s hs)
    exact productive.changed
  · obtain ⟨path, isPath, short⟩ := h.exists_path_le node derives
    exact (minimal path isPath).trans short

/-- **Asked for a derivation of a node, a complete chart gives a shortest one.** -/
theorem exists_derivation (h : scope.ChartsAll start g) (node : g.hasNode t = true) :
    ∃ steps, g.derivation t = .ok steps ∧ scope.ShortestDerivation start steps t := by
  obtain ⟨path, isPath⟩ := h.exists_path node
  obtain ⟨steps, derivation, shortest⟩ := h.exists_shortest node isPath
  exact ⟨steps, derivation, h.shortestDerivation node shortest⟩

theorem derivation_start (h : scope.ChartsAll start g) : g.derivation start = .ok [] := by
  simp [Graph.derivation, h.root, h.hasNode_start, Derivation.path?]

end Scope.ChartsAll

/-! ## Derivations after a run -/

variable {σ : Type}

/-- **Derivations after a completed run.** There is a shortest one of every node of its graph, and the
empty one of the start. Any other completed run from that start, whatever its strategy, its listener and
whoever moved, has the same nodes and derivations of the same lengths. -/
theorem derivations_are_shortest {e : Explorer} {listener : Listener σ} {start : Text} {journal : Journal}
    {heard : σ} {ended : Ended (Heard σ)} (run : e.Ends listener.overheard start journal ([], heard) ended)
    (completed : ended.Completed) (recorded : e.recording.isSome = true) :
    ∃ g, ended.explorer.recording = some (.graph g) ∧ g.derivation start = .ok [] ∧
      ∀ t, g.hasNode t = true →
        ∃ steps, g.derivation t = .ok steps ∧ e.scope.ShortestDerivation start steps t ∧
          ∀ {τ : Type} {e' : Explorer} {listener' : Listener τ} {journal' : Journal} {heard' : τ}
            {ended' : Ended (Heard τ)}, e'.Ends listener'.overheard start journal' ([], heard') ended' →
            ended'.Completed → e'.recording.isSome = true → e'.scope = e.scope →
            ∃ g' steps', ended'.explorer.recording = some (.graph g') ∧ g'.hasNode t = true ∧
              g'.derivation t = .ok steps' ∧ steps'.length = steps.length := by
  obtain ⟨g, recording, chart⟩ := run.exists_chart completed recorded
  refine ⟨g, recording, chart.derivation_start, fun t node => ?_⟩
  obtain ⟨steps, derivation, shortest⟩ := chart.exists_derivation node
  refine ⟨steps, derivation, shortest, ?_⟩
  intro τ e' listener' journal' heard' ended' run' completed' recorded' same
  obtain ⟨g', recording', chart'⟩ := run'.exists_chart completed' recorded'
  rw [same] at chart'
  have node' : g'.hasNode t = true := chart'.hasNode_iff.2 (chart.hasNode_iff.1 node)
  obtain ⟨steps', derivation', shortest'⟩ := chart'.exists_derivation node'
  exact ⟨g', steps', recording', node', derivation', shortest'.length_eq shortest⟩

/-- From `S` to `a` it takes one step of `circle`, and whoever explores it finds one. -/
theorem derivations_are_shortest_circle :
    let ended := circle.afterPool ['S'] (circleAfter ['S'] circleMoves)
    let ended' := { circle with strategy := .sequential }.run Listener.taking.overheard ['S'] {} ([], ())
    ∃ g steps, ended.explorer.recording = some (.graph g) ∧ g.derivation ['S'] = .ok [] ∧
      g.derivation ['a'] = .ok steps ∧ circle.scope.ShortestDerivation ['S'] steps ['a'] ∧
      steps.length = 1 ∧
      ∃ g' steps', ended'.explorer.recording = some (.graph g') ∧ g'.derivation ['a'] = .ok steps' ∧
        steps'.length = 1 := by
  intro ended ended'
  have finished : (circleAfter ['S'] circleMoves).caller = .finished := by decide
  obtain ⟨g, recording, derivation_start, spec⟩ :=
    derivations_are_shortest (ends_circleAfter finished) (completed_circleAfter finished) rfl
  have node : g.hasNode ['a'] = true := by
    obtain ⟨g', recorded, node⟩ : ∃ g', (circleAfter ['S'] circleMoves).shared.trail.graph = some g' ∧
        g'.hasNode ['a'] = true := ⟨_, rfl, by decide⟩
    rw [circle.recording_afterPool, recorded] at recording
    cases recording
    exact node
  obtain ⟨steps, derivation, shortest, same⟩ := spec ['a'] node
  have one : circle.scope.Derives ['S'] [⟨['S'], ⟨['S'], ['a'], by decide⟩, ['a']⟩] ['a'] :=
    ⟨by simp, by decide, by simp⟩
  have length : steps.length = 1 := by
    refine Nat.le_antisymm (shortest.shortest _ one) (List.length_pos_iff.2 ?_)
    rintro rfl
    exact absurd shortest.linked (by simp)
  have completed' : ended'.Completed :=
    Explorer.completed_run_of_sequential rfl Listener.assents_taking _ _ _
  obtain ⟨g', steps', recording', -, derivation', length'⟩ :=
    same (Explorer.ends_run { circle with strategy := .sequential } _ _ _ _) completed' rfl rfl
  exact ⟨g, steps, recording, derivation_start, derivation, shortest, length, g', steps', recording',
    derivation', length'.trans length⟩

end SemiThue.Exploration
