/-
Actions that may end in a fault and keep what they did until then.

An action changes a state and ends either well or in a fault. The state it leaves is its own in both
cases: a listener that refuses a word has heard it, and a file that cannot be written to may still owe
what was sent to it. `Action.each` performs an action for the members of a list in turn and stops at
the first fault.
-/
import SemiThue.Fault

set_option autoImplicit false

namespace SemiThue

/-- A change of state that may end in a fault. -/
abbrev Action (σ : Type) := σ → σ × Option Fault

namespace Action

variable {α σ : Type}

/-- Performs an action for each member of a list until one of them ends in a fault. -/
def each (f : α → Action σ) : List α → Action σ
  | [], s => (s, none)
  | a :: l, s =>
    match f a s with
    | (s, none) => each f l s
    | (s, some fault) => (s, some fault)

@[simp] theorem each_nil (f : α → Action σ) (s : σ) : each f [] s = (s, none) := rfl

theorem each_cons_of_none {f : α → Action σ} {a : α} {l : List α} {s t : σ} (h : f a s = (t, none)) :
    each f (a :: l) s = each f l t := by simp [each, h]

theorem each_cons_of_some {f : α → Action σ} {a : α} {l : List α} {s t : σ} {e : Fault}
    (h : f a s = (t, some e)) : each f (a :: l) s = (t, some e) := by simp [each, h]

/-- **What every single action keeps, the whole row keeps**, also when it breaks off. -/
theorem each_keeps {P : σ → Prop} {f : α → Action σ} {l : List α}
    (h : ∀ a ∈ l, ∀ s, P s → P (f a s).1) {s : σ} (hs : P s) : P (each f l s).1 := by
  induction l generalizing s with
  | nil => exact hs
  | cons a l ih =>
    have ha := h a List.mem_cons_self s hs
    simp only [each]
    split
    · rename_i t heq
      rw [heq] at ha
      exact ih (fun b hb => h b (List.mem_cons_of_mem _ hb)) ha
    · rename_i t fault heq
      rw [heq] at ha
      exact ha

/-- What a row of actions ends in, one of them ended in. -/
theorem exists_of_each {f : α → Action σ} {l : List α} {s : σ} {fault : Fault}
    (ended : (each f l s).2 = some fault) : ∃ a t, (f a t).2 = some fault := by
  induction l generalizing s with
  | nil => cases ended
  | cons a l ih =>
    simp only [each] at ended
    split at ended
    · exact ih ended
    · rename_i t fault' broke
      exact ⟨a, s, by rw [broke]; exact ended⟩

/-- A row of actions is performed in two parts: the second only if the first ends well. -/
theorem each_append (f : α → Action σ) (l₁ l₂ : List α) (s : σ) :
    each f (l₁ ++ l₂) s =
      match each f l₁ s with
      | (t, none) => each f l₂ t
      | (t, some fault) => (t, some fault) := by
  induction l₁ generalizing s with
  | nil => rfl
  | cons a l ih =>
    simp only [List.cons_append, each]
    cases h : f a s with
    | mk t e => cases e <;> simp [ih]

end Action

end SemiThue
