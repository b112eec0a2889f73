/-
The texts that an exploration can come upon at all.

Rewriting brings in no characters but those of right sides, and a text beyond the limit of its length
is dropped. So whatever is taken up after the start is made of the characters of the start and of the
right sides, and is not longer than the limit: finitely many texts. Their list is written down here
for the sake of counting. No program ever computes it; the number of its members that were not visited
yet is what goes down while an exploration goes on.
-/
import SemiThue.Measure
import SemiThue.Exploration.Visited
import SemiThue.Grammar.Basic

set_option autoImplicit false

namespace SemiThue

/-- Every character of the text is one of the given ones. -/
def Text.Over (letters : List Char) (t : Text) : Prop := ∀ c ∈ t, c ∈ letters

/-- The characters that can occur in a text derived from `start`. -/
def Grammar.charactersFrom (g : Grammar) (start : Text) : List Char := start ++ g.rules.flatMap Rule.right

theorem Grammar.over_start (g : Grammar) (start : Text) : start.Over (g.charactersFrom start) :=
  fun _ hc => List.mem_append_left _ hc

/-- Rewriting stays within the characters of the start and of the right sides. -/
theorem Grammar.over_rewrite {g : Grammar} {start : Text} {r : Rule} {t : Text} (hr : r ∈ g.rules)
    (ht : t.Over (g.charactersFrom start)) : (r.rewrite t).Over (g.charactersFrom start) := by
  intro c hc
  rcases Rule.mem_rewrite hc with hc | hc
  · exact List.mem_append_right _ (List.mem_flatMap.2 ⟨r, hr, hc⟩)
  · exact ht c hc

namespace Exploration

/-- The texts of a given length over the given characters. -/
def textsOfLength (letters : List Char) : Nat → List Text
  | 0 => [[]]
  | n + 1 => (textsOfLength letters n).flatMap fun t => letters.map (· :: t)

/-- The texts over the given characters of at most a given length; none if the limit is negative. -/
def textsWithin (letters : List Char) (limit : Int) : List Text :=
  if limit < 0 then [] else (List.range (limit.toNat + 1)).flatMap (textsOfLength letters)

/-- How many of these texts were not visited yet. -/
def unvisited (letters : List Char) (limit : Int) (v : Visited) : Nat :=
  (textsWithin letters limit).countP fun t => t ∉ v

theorem mem_textsOfLength {letters : List Char} {n : Nat} {t : Text} :
    t ∈ textsOfLength letters n ↔ t.length = n ∧ t.Over letters := by
  induction n generalizing t with
  | zero =>
    simp only [textsOfLength, List.mem_singleton, List.length_eq_zero_iff]
    exact ⟨fun h => ⟨h, by simp [h, Text.Over]⟩, And.left⟩
  | succ n ih =>
    simp only [textsOfLength, List.mem_flatMap, List.mem_map, ih]
    constructor
    · rintro ⟨s, ⟨hl, hs⟩, c, hc, rfl⟩
      refine ⟨by simp [hl], fun d hd => ?_⟩
      rcases List.mem_cons.1 hd with rfl | hd
      · exact hc
      · exact hs d hd
    · rintro ⟨hl, ht⟩
      cases t with
      | nil => simp at hl
      | cons c s =>
        exact ⟨s, ⟨by simpa using hl, fun d hd => ht d (List.mem_cons_of_mem _ hd)⟩, c,
          ht c List.mem_cons_self, rfl⟩

theorem mem_textsWithin {letters : List Char} {limit : Int} {t : Text} :
    t ∈ textsWithin letters limit ↔ (t.length : Int) ≤ limit ∧ t.Over letters := by
  unfold textsWithin
  split
  · simp only [List.not_mem_nil, false_iff]
    omega
  · simp only [List.mem_flatMap, List.mem_range, mem_textsOfLength]
    constructor
    · rintro ⟨n, hn, rfl, ht⟩
      exact ⟨by omega, ht⟩
    · rintro ⟨hl, ht⟩
      exact ⟨t.length, by omega, rfl, ht⟩

/-- Visiting more leaves less. -/
theorem unvisited_le {letters : List Char} {limit : Int} {v w : Visited} (h : ∀ t, t ∈ v → t ∈ w) :
    unvisited letters limit w ≤ unvisited letters limit v := by
  refine List.countP_mono_left fun t _ ht => ?_
  simp only [decide_eq_true_eq] at ht ⊢
  exact fun hv => ht (h t hv)

/-- **A new text of the universe is one less to come.** -/
theorem unvisited_insert_lt {letters : List Char} {limit : Int} {v : Visited} {t : Text}
    (hl : (t.length : Int) ≤ limit) (ht : t.Over letters) (hv : t ∉ v) :
    unvisited letters limit (v.insert t) < unvisited letters limit v := by
  refine Measure.countP_lt_countP_of_mem (mem_textsWithin.2 ⟨hl, ht⟩) (by simpa using hv) (by simp)
    fun s _ hs => ?_
  simp only [decide_eq_true_eq, Visited.mem_insert, not_or] at hs ⊢
  exact hs.2

end Exploration

end SemiThue
