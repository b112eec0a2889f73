/-
Counts and sums over lists that grow or shrink.

Explorations and searches end because some number goes down: how many texts were not visited yet, how
much work the units on their way still mean. These numbers are counts over a list of candidates and
sums over a list of parts. The lemmas here say how such a number changes when one candidate is settled
or one part is replaced.
-/

set_option autoImplicit false

namespace SemiThue.Measure

/-- Counting strictly less of a list, when one element is counted no more and none is counted anew. -/
theorem countP_lt_countP_of_mem {α : Type} {p q : α → Bool} {l : List α} {x : α} (hx : x ∈ l)
    (hp : p x = true) (hq : q x = false) (h : ∀ y ∈ l, q y = true → p y = true) :
    l.countP q < l.countP p := by
  induction l with
  | nil => simp at hx
  | cons y ys ih =>
    have hle : ys.countP q ≤ ys.countP p :=
      List.countP_mono_left fun z hz => h z (List.mem_cons_of_mem _ hz)
    rcases List.mem_cons.1 hx with rfl | hx
    · rw [List.countP_cons_of_pos hp, List.countP_cons_of_neg (by simp [hq])]
      omega
    · have ih := ih hx fun z hz => h z (List.mem_cons_of_mem _ hz)
      have hy := h y List.mem_cons_self
      have hone : (if q y = true then 1 else 0) ≤ (if p y = true then 1 else 0) := by
        cases hqy : q y with
        | true => exact Nat.le_of_eq (by rw [hy hqy])
        | false => exact Nat.le_trans (Nat.le_of_eq (if_neg Bool.false_ne_true)) (Nat.zero_le _)
      rw [List.countP_cons, List.countP_cons]
      exact Nat.add_lt_add_of_lt_of_le ih hone

/-- The sum of a quantity over a list. -/
def total {α : Type} (f : α → Nat) : List α → Nat
  | [] => 0
  | a :: l => f a + total f l

@[simp] theorem total_nil {α : Type} (f : α → Nat) : total f [] = 0 := rfl

@[simp] theorem total_cons {α : Type} (f : α → Nat) (a : α) (l : List α) :
    total f (a :: l) = f a + total f l := rfl

@[simp] theorem total_append {α : Type} (f : α → Nat) (l₁ l₂ : List α) :
    total f (l₁ ++ l₂) = total f l₁ + total f l₂ := by
  induction l₁ with
  | nil => simp
  | cons a l₁ ih => rw [List.cons_append, total_cons, total_cons, ih, Nat.add_assoc]

/-- A sum of quantities is nothing if each of them is. -/
theorem total_eq_zero_iff {α : Type} {f : α → Nat} {l : List α} :
    total f l = 0 ↔ ∀ a ∈ l, f a = 0 := by
  induction l with
  | nil => simp
  | cons a l ih => rw [total_cons, Nat.add_eq_zero_iff, ih, List.forall_mem_cons]

/-- A sum of smaller quantities is smaller. -/
theorem total_le_total {α : Type} {f g : α → Nat} {l : List α} (h : ∀ a ∈ l, f a ≤ g a) :
    total f l ≤ total g l := by
  induction l with
  | nil => simp
  | cons a l ih =>
    have := h a List.mem_cons_self
    have := ih fun b hb => h b (List.mem_cons_of_mem _ hb)
    simp only [total_cons]
    omega

/-- Taking an element out of a list takes its share out of the sum. -/
theorem total_eraseIdx {α : Type} (f : α → Nat) {l : List α} {i : Nat} {a : α} (h : l[i]? = some a) :
    total f (l.eraseIdx i) + f a = total f l := by
  induction l generalizing i with
  | nil => simp at h
  | cons b l ih =>
    cases i with
    | zero =>
      simp only [List.getElem?_cons_zero, Option.some.injEq] at h
      simp [h]; omega
    | succ i =>
      simp only [List.getElem?_cons_succ] at h
      have := ih h
      simp only [List.eraseIdx_cons_succ, total_cons]
      omega

/-- Replacing an element of a list exchanges its share of the sum. -/
theorem total_set {α : Type} (f : α → Nat) {l : List α} {i : Nat} {a : α} (b : α)
    (h : l[i]? = some a) : total f (l.set i b) + f a = total f l + f b := by
  induction l generalizing i with
  | nil => simp at h
  | cons c l ih =>
    cases i with
    | zero =>
      simp only [List.getElem?_cons_zero, Option.some.injEq] at h
      simp [h]; omega
    | succ i =>
      simp only [List.getElem?_cons_succ] at h
      have := ih h
      simp only [List.set_cons_succ, total_cons]
      omega

end SemiThue.Measure
