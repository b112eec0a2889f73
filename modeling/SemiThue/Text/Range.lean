/-
Sets of characters given by ranges of code points.

Properties of characters are data of the Unicode standard, version 14.0: a property is the sorted list
of the ranges that have it. The scan stops at the first range above the character, so the ASCII part
of a table costs a few comparisons whatever the length of the table.
-/

set_option autoImplicit false

namespace SemiThue.Text

/-- The code point lies in one of the ranges, which are sorted and do not overlap. -/
def inRanges (n : Nat) : List (Nat × Nat) → Bool
  | [] => false
  | (lo, hi) :: others => if n < lo then false else n ≤ hi || inRanges n others

/-- Lying in one of the ranges is enough only in a sorted table; being found always means lying in one. -/
theorem exists_of_inRanges {n : Nat} {ranges : List (Nat × Nat)} (h : inRanges n ranges = true) :
    ∃ r ∈ ranges, r.1 ≤ n ∧ n ≤ r.2 := by
  induction ranges with
  | nil => simp [inRanges] at h
  | cons r others ih =>
    obtain ⟨lo, hi⟩ := r
    simp only [inRanges] at h
    split at h
    · simp at h
    · rw [Bool.or_eq_true, decide_eq_true_eq] at h
      rcases h with h | h
      · exact ⟨(lo, hi), List.mem_cons_self, by simp only; omega, h⟩
      · obtain ⟨r, hr, hn⟩ := ih h
        exact ⟨r, List.mem_cons_of_mem _ hr, hn⟩

end SemiThue.Text
