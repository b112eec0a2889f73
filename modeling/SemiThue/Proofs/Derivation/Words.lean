/-
The words of a recorded run, and the words that were told.

The words of a graph are the nodes with the verdict of a word, and a word is recorded just before it is
told; so one expects the words of the graph of a completed run to be the words that were told, sorted and
each once. That is so for every word but one. The start is a node before anything is recorded, as a live
text, and a node keeps its first verdict; so if the start is made again as a word, it is told, but the
graph does not have it as a word.
-/
import SemiThue.Proofs.Pool.Charted
import SemiThue.Proofs.Text.Order

set_option autoImplicit false

namespace SemiThue.Exploration

open SemiThue.Derivation (Graph Node)

variable {σ : Type} {scope : Scope} {start : Text} {g : Graph}

/-- The texts of the nodes with a verdict, each once. -/
theorem Scope.Charts.nodup_texts_of_verdict (h : scope.Charts start g) (v : Verdict) :
    ((g.nodes.filter fun n => n.verdict == some v).map Node.text).Nodup :=
  (List.filter_sublist.map Node.text).nodup h.nodup

theorem Scope.ChartsAll.mem_wordNodes_iff (h : scope.ChartsAll start g) {t : Text} :
    t ∈ (g.nodes.filter fun n => n.verdict == some .word).map Node.text ↔
      t ≠ start ∧ ∃ a, scope.Productive start a ∧ a.step.output = t ∧ a.verdict = .word := by
  rw [← h.exists_word_node_iff, List.mem_map]
  refine exists_congr fun n => ?_
  rw [List.mem_filter, beq_iff_eq, and_assoc, and_comm (a := n.text = t)]

/-- What some text to be taken up gives as a word, a productive application gives. -/
theorem Scope.exists_productive_word_iff {t : Text} :
    (∃ a, scope.Productive start a ∧ a.step.output = t ∧ a.verdict = .word) ↔
      ∃ s, scope.Reach start s ∧ t ∈ outputs .word (scope.applications s) := by
  constructor
  · rintro ⟨a, productive, rfl, word⟩
    exact ⟨_, productive.reach, mem_outputs.2 ⟨a, productive.applied, word, rfl⟩⟩
  · rintro ⟨s, reach, mem⟩
    obtain ⟨a, applied, word, rfl⟩ := mem_outputs.1 mem
    obtain rfl := Scope.source_of_mem_applications applied
    exact ⟨a, ⟨reach, applied, .inl word⟩, rfl, word⟩

/-- **The words of the graph of a completed run are the words that were told, but for the start**: sorted,
and each once, whatever the strategy and whoever moved. They are all the words that were told exactly if
the start was not among those. -/
theorem words_eq_told_but_start {e : Explorer} {listener : Listener σ} {start : Text}
    {journal : Journal} {heard : σ} {ended : Ended (Heard σ)}
    (run : e.Ends listener.overheard start journal ([], heard) ended) (completed : ended.Completed)
    (recorded : e.recording.isSome = true) :
    let told := ended.heard.1.map Call.word
    ∃ g, ended.explorer.recording = some (.graph g) ∧
      g.words = Text.withoutRepeats (Text.sort (told.filter fun word => word ≠ start)) ∧
      (g.words = Text.withoutRepeats (Text.sort told) ↔ start ∉ told) := by
  intro told
  obtain ⟨g, recording, chart⟩ := run.exists_chart completed recorded
  have words_mem : ∀ t, t ∈ (g.nodes.filter fun n => n.verdict == some .word).map Node.text ↔
      t ∈ told ∧ t ≠ start := by
    intro t
    rw [chart.mem_wordNodes_iff, Scope.exists_productive_word_iff, and_comm]
    exact and_congr_left' (run.mem_told_iff completed).symm
  have nodup := chart.nodup_texts_of_verdict .word
  refine ⟨g, recording, Text.sort_eq_withoutRepeats_sort nodup fun t => ?_, ?_, ?_⟩
  · rw [words_mem, List.mem_filter, decide_eq_true_eq]
  · intro same mem
    -- the start would be among the words of the graph
    have word : start ∈ g.words := by
      rw [same, Text.mem_withoutRepeats, (Text.sort_perm told).mem_iff]
      exact mem
    rw [Graph.words, Graph.withVerdict, (Text.sort_perm _).mem_iff, words_mem] at word
    exact word.2 rfl
  · intro absent
    refine Text.sort_eq_withoutRepeats_sort nodup fun t => ?_
    rw [words_mem]
    exact and_iff_left_of_imp fun mem same => absent (same ▸ mem)

/-- An explorer that records its runs. `S` and `a` are made of each other. -/
def circle : Explorer where
  scope :=
    { grammar :=
        { bound := 5
          terminals := [['a']]
          rules := [.ofChar 'a' ['S'], .ofChar 'S' ['a']]
          bound_pos := by decide }
      margin := 0 }
  strategy := .concurrent (.ofSucc 0 true)
  recording := some .empty

/-- The end of a run of `circle`, after a schedule. -/
def circleAfter (start : Text) (moves : List Move) : Pool (Heard Unit) :=
  .after (circle.plan (.ofSucc 0 true) Listener.taking.overheard start)
    (circle.openTrail start {} ([], ())) moves

/-- A run of `circle` from `S`: its worker tells `a`. -/
def circleMoves : List Move :=
  [[.caller, .caller, .begin 0], List.replicate 13 (.work 0), [.caller, .caller]].flatten

/-- A run of `circle` from `a`: its worker schedules `S`, and then tells `a`. -/
def circleBackMoves : List Move :=
  [[.caller, .caller, .begin 0], List.replicate 16 (.work 0), [.begin 0], List.replicate 13 (.work 0),
    [.caller, .caller]].flatten

theorem ends_circleAfter {start : Text} {moves : List Move}
    (finished : (circleAfter start moves).caller = .finished) :
    circle.Ends Listener.taking.overheard start {} ([], ())
      (circle.afterPool start (circleAfter start moves)) :=
  .concurrent rfl (Pool.reachable_after _ _ _) finished

theorem completed_circleAfter {start : Text} {moves : List Move}
    (finished : (circleAfter start moves).caller = .finished) :
    (circle.afterPool start (circleAfter start moves)).Completed :=
  Explorer.completed_afterPool Listener.assents_taking (Pool.reachable_after _ _ _) finished

/-- From `S` the graph has the word that was told. -/
theorem words_eq_told_but_start_circle :
    let ended := circle.afterPool ['S'] (circleAfter ['S'] circleMoves)
    ended.heard.1.map Call.word = [['a']] ∧
      ∃ g, ended.explorer.recording = some (.graph g) ∧ g.words = [['a']] := by
  intro ended
  have finished : (circleAfter ['S'] circleMoves).caller = .finished := by decide
  have run := ends_circleAfter finished
  have completed : ended.Completed := completed_circleAfter finished
  have told : ended.heard.1.map Call.word = [['a']] := by decide
  obtain ⟨g, recording, words, -⟩ := words_eq_told_but_start run completed rfl
  refine ⟨told, g, recording, ?_⟩
  rw [words, told]
  simp [Text.sort, Text.withoutRepeats]

/-- **From `a` it has not**: the start is told as a word, and the graph has no word. -/
theorem words_ne_told_circle :
    let ended := circle.afterPool ['a'] (circleAfter ['a'] circleBackMoves)
    circle.Ends Listener.taking.overheard ['a'] {} ([], ()) ended ∧ ended.Completed ∧
      ended.heard.1.map Call.word = [['a']] ∧
      ∃ g, ended.explorer.recording = some (.graph g) ∧ g.words = [] ∧
        g.words ≠ Text.withoutRepeats (Text.sort (ended.heard.1.map Call.word)) := by
  intro ended
  have finished : (circleAfter ['a'] circleBackMoves).caller = .finished := by decide
  have told : ended.heard.1.map Call.word = [['a']] := by decide
  have graph : ∃ g, (circleAfter ['a'] circleBackMoves).shared.trail.graph = some g ∧
      (g.nodes.filter fun n => n.verdict == some .word) = [] := ⟨_, rfl, by decide⟩
  obtain ⟨g, recorded, none⟩ := graph
  have words : g.words = [] := by simp [Graph.words, Graph.withVerdict, none, Text.sort]
  refine ⟨ends_circleAfter finished, completed_circleAfter finished, told, g, ?_, words, ?_⟩
  · rw [circle.recording_afterPool, recorded]
    rfl
  · rw [words, told]
    simp [Text.sort, Text.withoutRepeats]

end SemiThue.Exploration
