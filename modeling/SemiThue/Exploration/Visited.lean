/-
The texts that an exploration has come upon and need not take up again.

They are kept in the order in which they came, and indexed by a table, so that looking one up does not
take longer and longer. What is said about them is said of the list; the table only decides it.
-/
import SemiThue.Text.Table

set_option autoImplicit false

namespace SemiThue.Exploration

/-- A set of texts. -/
structure Visited where
  /-- The texts, the newest first. -/
  texts : List Text
  /-- The same texts, to be looked up. -/
  index : Text.Table Unit
  /-- How many texts there are. -/
  size : Nat
  /-- No text is there twice. -/
  nodup : texts.Nodup
  /-- The index holds the texts. -/
  index_iff : ∀ t, index.contains t = true ↔ t ∈ texts
  /-- The texts are counted. -/
  size_eq : size = texts.length
deriving DecidableEq, Repr

namespace Visited

instance : Membership Text Visited := ⟨fun v t => t ∈ v.texts⟩

instance (t : Text) (v : Visited) : Decidable (t ∈ v) := decidable_of_iff _ (v.index_iff t)

/-- The set without members. -/
def empty : Visited := ⟨[], {}, 0, List.nodup_nil, by simp, List.length_nil.symm⟩

/-- The texts, sorted. -/
def toSortedList (v : Visited) : List Text := Text.sort v.texts

/-- The set with a text more that is not there yet. -/
def add (v : Visited) (t : Text) (h : t ∉ v) : Visited where
  texts := t :: v.texts
  index := v.index.insert t ()
  size := v.size + 1
  nodup := List.nodup_cons.2 ⟨h, v.nodup⟩
  index_iff := fun s => by
    rw [Text.Table.contains_insert, Bool.or_eq_true, beq_iff_eq, v.index_iff, List.mem_cons]
  size_eq := by rw [v.size_eq, List.length_cons]

/-- The set with a text more, unless it is there already. -/
def insert (v : Visited) (t : Text) : Visited := if h : t ∈ v then v else v.add t h

/-- The set with a text that was not there before; nothing if it was. -/
def claim? (v : Visited) (t : Text) : Option Visited := if h : t ∈ v then none else some (v.add t h)

/-- The set of the members of a list. -/
def ofList (l : List Text) : Visited := l.foldl insert empty

/-- The set as it is shown to programmers. -/
def describe (v : Visited) : String := s!"<SeenSet: {v.size} strings>"

@[simp] theorem not_mem_empty (t : Text) : t ∉ empty := List.not_mem_nil

@[simp] theorem mem_insert {v : Visited} {s t : Text} : s ∈ v.insert t ↔ s = t ∨ s ∈ v := by
  unfold insert
  split
  · constructor
    · exact .inr
    · rintro (rfl | h) <;> assumption
  · exact List.mem_cons

theorem insert_of_mem {v : Visited} {t : Text} (h : t ∈ v) : v.insert t = v := by
  simp [insert, h]

theorem claim?_eq_some_iff {v w : Visited} {t : Text} :
    v.claim? t = some w ↔ t ∉ v ∧ w = v.insert t := by
  unfold claim? insert
  split
  · simp [*]
  · simp [*, eq_comm]

theorem claim?_eq_none_iff {v : Visited} {t : Text} : v.claim? t = none ↔ t ∈ v := by
  unfold claim?
  split <;> simp [*]

@[simp] theorem mem_ofList {l : List Text} {t : Text} : t ∈ ofList l ↔ t ∈ l := by
  have h : ∀ (v : Visited), t ∈ l.foldl insert v ↔ t ∈ l ∨ t ∈ v := by
    induction l with
    | nil => simp
    | cons s l ih =>
      intro v
      rw [List.foldl_cons, ih, mem_insert, List.mem_cons]
      constructor
      · rintro (h | rfl | h) <;> simp [*]
      · rintro ((rfl | h) | h) <;> simp [*]
  rw [ofList, h]
  simp

end Visited

end SemiThue.Exploration
