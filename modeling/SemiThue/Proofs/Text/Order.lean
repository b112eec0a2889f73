/-
The order of texts.

`Text.atMost` is a total order, so a list of texts that is sorted and has no repeats is determined by its
members. Two ways to come by such a list are used: to sort a list without repeats, and to sort any list
and then drop the repeats. They agree on lists with the same members.
-/
import Mathlib.Data.List.Sort
import SemiThue.Text.Basic

set_option autoImplicit false

namespace SemiThue.Text

/-! ## A total order -/

theorem atMost_total (s t : Text) : (atMost s t || atMost t s) = true := by
  induction s generalizing t with
  | nil => simp
  | cons a s ih =>
    cases t with
    | nil => simp
    | cons b t =>
      have tails := ih t
      simp only [atMost_cons, Bool.or_eq_true, Bool.and_eq_true, decide_eq_true_eq, beq_iff_eq] at tails ⊢
      rcases Nat.lt_trichotomy a.toNat b.toNat with lt | eq | gt
      · exact .inl (.inl lt)
      · have same := Char.toNat_inj.1 eq
        exact tails.imp (fun h => .inr ⟨same, h⟩) fun h => .inr ⟨same.symm, h⟩
      · exact .inr (.inl gt)

theorem atMost_antisymm {s t : Text} (h : atMost s t = true) (h' : atMost t s = true) : s = t := by
  induction s generalizing t with
  | nil =>
    cases t with
    | nil => rfl
    | cons b t => cases h'
  | cons a s ih =>
    cases t with
    | nil => cases h
    | cons b t =>
      simp only [atMost_cons, Bool.or_eq_true, Bool.and_eq_true, decide_eq_true_eq, beq_iff_eq] at h h'
      rcases h with lt | ⟨rfl, tails⟩
      · rcases h' with gt | ⟨rfl, -⟩ <;> omega
      · rcases h' with gt | ⟨-, tails'⟩
        · omega
        · rw [ih tails tails']

theorem atMost_trans (s t u : Text) (h : atMost s t = true) (h' : atMost t u = true) :
    atMost s u = true := by
  induction s generalizing t u with
  | nil => simp
  | cons a s ih =>
    cases t with
    | nil => cases h
    | cons b t =>
      cases u with
      | nil => cases h'
      | cons c u =>
        simp only [atMost_cons, Bool.or_eq_true, Bool.and_eq_true, decide_eq_true_eq, beq_iff_eq] at h h' ⊢
        rcases h with lt | ⟨rfl, tails⟩
        · rcases h' with lt' | ⟨rfl, -⟩
          · exact .inl (Nat.lt_trans lt lt')
          · exact .inl lt
        · exact h'.imp_right fun ⟨same, tails'⟩ => ⟨same, ih t u tails tails'⟩

/-- One text comes before another. -/
def Before (s t : Text) : Prop := atMost s t = true ∧ s ≠ t

instance : Std.Irrefl Before := ⟨fun _ h => h.2 rfl⟩

instance : Std.Antisymm Before := ⟨fun _ _ h h' => atMost_antisymm h.1 h'.1⟩

/-! ## Sorted lists -/

theorem pairwise_sort (texts : List Text) : (sort texts).Pairwise fun s t => atMost s t = true :=
  List.pairwise_mergeSort atMost_trans atMost_total texts

theorem pairwise_sort_of_nodup {texts : List Text} (nodup : texts.Nodup) :
    (sort texts).Pairwise Before :=
  (pairwise_sort texts).and ((sort_perm texts).nodup_iff.2 nodup)

/-- In a sorted list repeats stand next to each other, so none is left. -/
theorem pairwise_withoutRepeats {texts : List Text}
    (sorted : texts.Pairwise fun s t => atMost s t = true) : (withoutRepeats texts).Pairwise Before := by
  fun_induction withoutRepeats texts with
  | case1 s t texts same ih => exact ih (List.pairwise_cons.1 sorted).2
  | case2 s t texts differ ih =>
    obtain ⟨first, rest⟩ := List.pairwise_cons.1 sorted
    refine List.pairwise_cons.2 ⟨fun u hu => ?_, ih rest⟩
    rw [mem_withoutRepeats] at hu
    refine ⟨first u hu, ?_⟩
    rintro rfl
    -- the next text is at most this one, so it is this one
    rcases List.mem_cons.1 hu with rfl | hu
    · exact differ (beq_self_eq_true _)
    · refine differ (beq_iff_eq.2 (atMost_antisymm (first t List.mem_cons_self) ?_))
      exact (List.pairwise_cons.1 rest).1 _ hu
  | case3 texts few =>
    rcases texts with _ | ⟨s, _ | ⟨t, texts⟩⟩
    · exact List.Pairwise.nil
    · exact List.pairwise_singleton _ _
    · exact absurd rfl (few s t texts)

/-- **Sorting a list without repeats** gives what sorting any list with the same members and then dropping
the repeats gives. -/
theorem sort_eq_withoutRepeats_sort {texts texts' : List Text} (nodup : texts.Nodup)
    (same : ∀ t, t ∈ texts ↔ t ∈ texts') : sort texts = withoutRepeats (sort texts') := by
  refine (pairwise_sort_of_nodup nodup).eq_of_mem_iff (pairwise_withoutRepeats (pairwise_sort texts')) ?_
  intro t
  rw [mem_withoutRepeats, (sort_perm texts).mem_iff, (sort_perm texts').mem_iff, same]

/-- **Only the members of a list matter** once it is sorted and the repeats are dropped. -/
theorem withoutRepeats_sort_congr {texts texts' : List Text} (same : ∀ t, t ∈ texts ↔ t ∈ texts') :
    withoutRepeats (sort texts) = withoutRepeats (sort texts') := by
  refine (pairwise_withoutRepeats (pairwise_sort texts)).eq_of_mem_iff
    (pairwise_withoutRepeats (pairwise_sort texts')) fun t => ?_
  rw [mem_withoutRepeats, mem_withoutRepeats, (sort_perm texts).mem_iff, (sort_perm texts').mem_iff, same]

end SemiThue.Text
