/-
Queues from which any member may be taken.

Members come in at the back. Mostly the oldest is taken, and then neither coming nor going depends on
how many others there are: the newest members are kept in a list of their own, turned around, and are
turned back only when the other list has none to give.
-/

set_option autoImplicit false

namespace SemiThue.Exploration

/-- A queue. -/
structure Queue (α : Type) where
  /-- The older members, the oldest first. -/
  front : List α := []
  /-- The newer members, the newest first. -/
  back : List α := []
deriving DecidableEq, Repr

namespace Queue

variable {α : Type}

/-- The members, the oldest first. -/
def toList (q : Queue α) : List α := q.front ++ q.back.reverse

/-- There is no member. -/
def isEmpty (q : Queue α) : Bool := q.front.isEmpty && q.back.isEmpty

/-- The queue with a new member. -/
def push (q : Queue α) (a : α) : Queue α := { q with back := a :: q.back }

/-- The member at a place, and the queue without it. -/
def take? (q : Queue α) (i : Nat) : Option (α × Queue α) :=
  match q.front[i]? with
  | some a => some (a, { q with front := q.front.eraseIdx i })
  | none => q.toList[i]?.map fun a => (a, ⟨q.toList.eraseIdx i, []⟩)

@[simp] theorem toList_empty : ({} : Queue α).toList = [] := rfl

@[simp] theorem toList_push (q : Queue α) (a : α) : (q.push a).toList = q.toList ++ [a] := by
  simp [toList, push]

@[simp] theorem isEmpty_iff {q : Queue α} : q.isEmpty = true ↔ q.toList = [] := by
  simp [isEmpty, toList]

/-- **What is taken** stood at that place, and the others stay in order. -/
theorem take?_eq_some {q r : Queue α} {i : Nat} {a : α} (h : q.take? i = some (a, r)) :
    q.toList[i]? = some a ∧ r.toList = q.toList.eraseIdx i := by
  unfold take? at h
  split at h
  · rename_i b hb
    cases h
    have hi : i < q.front.length := (List.getElem?_eq_some_iff.1 hb).1
    unfold toList
    exact ⟨by rw [List.getElem?_append_left hi, hb], (List.eraseIdx_append_of_lt_length hi _).symm⟩
  · rw [Option.map_eq_some_iff] at h
    obtain ⟨b, hb, h⟩ := h
    cases h
    exact ⟨hb, by simp [toList]⟩

/-- Something can be taken from every place that there is. -/
theorem isSome_take?_iff {q : Queue α} {i : Nat} : (q.take? i).isSome = true ↔ i < q.toList.length := by
  unfold take?
  split
  · rename_i a ha
    have := (List.getElem?_eq_some_iff.1 ha).1
    simp only [Option.isSome_some, true_iff, toList, List.length_append]
    omega
  · simp

end Queue

end SemiThue.Exploration
