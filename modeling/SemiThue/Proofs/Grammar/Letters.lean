/-
Terminals that were read from a file.

Whatever a grammar file holds, its terminals are letters, one each: the alphabet is set by lines that keep
the letters of their values and nothing else, and there is no other way for a terminal to get in.
-/
import SemiThue.Grammar.Source.File
import SemiThue.Proofs.Grammar.Reading

set_option autoImplicit false

namespace SemiThue.Grammar.Source

/-- **Each of the terminals is a letter.** -/
def Lettered (terminals : List Text) : Prop := ∀ t ∈ terminals, ∃ c, t = [c] ∧ Text.isLetter c = true

theorem Lettered.isLetter {terminals : List Text} (h : Lettered terminals) {c : Char}
    (terminal : [c] ∈ terminals) : Text.isLetter c = true := by
  obtain ⟨d, same, letter⟩ := h _ terminal
  rwa [List.head_eq_of_cons_eq same]

/-- **A line that means an alphabet** means one of letters. -/
theorem Line.Means.lettered {content : Text} {letters : List Text}
    (means : Line.Means content (.alphabet letters)) : Lettered letters := by
  cases means with
  | alphabet setting some_letter =>
    intro t mem
    obtain ⟨c, kept, rfl⟩ := List.mem_map.1 mem
    exact ⟨c, rfl, (List.mem_filter.1 kept).2⟩

namespace Loaded

/-- **All terminals of a grammar that was read from a text are letters.** -/
theorem lettered_ofText (source origin : Text) : Lettered (ofText source origin).grammar.terminals := by
  intro t mem
  rw [grammar_ofText] at mem
  have given : t ∈ (Draft.ofLines origin source.lines).alphabet.getD [] :=
    (Text.sort_perm _).mem_iff.1 (Text.mem_withoutRepeats.1 mem)
  cases alphabet : (Draft.ofLines origin source.lines).alphabet with
  | none =>
    rw [alphabet] at given
    cases given
  | some letters =>
    rw [alphabet] at given
    obtain ⟨raw, -, means⟩ := exists_means_of_alphabet alphabet
    exact means.lettered t given

/-- **All terminals of a grammar that was read from a file are letters.** -/
theorem lettered {v : Files.Volume} {path : Files.Path} {loaded : Loaded}
    (h : ofFile v path = .ok loaded) : Lettered loaded.grammar.terminals := by
  unfold ofFile at h
  split at h
  · unfold ofBytes at h
    split at h
    · cases h
      exact lettered_ofText _ _
    · cases h
  · cases h

end Loaded

end SemiThue.Grammar.Source
