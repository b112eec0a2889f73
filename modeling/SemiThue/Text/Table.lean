/-
Tables: values filed under texts.

A text is filed by its code, a number made of its characters. A table is a tree that branches on the
binary digits of codes, the last digit first, down to heaps of entries; a heap that has grown too large
is parted by the next digit. So an entry is found in a few steps, and whole texts are compared only
where their codes agree, however much the texts of a table have in common.

What a table says does not depend on any of this: `find?_insert` tells all there is to know about it.
-/
import SemiThue.Text.Basic

set_option autoImplicit false

namespace SemiThue.Text

/-- The number by which a text is filed. -/
def code (t : Text) : Nat :=
  (t.foldl (fun (n : UInt64) c => 1000003 * n + c.val.toUInt64) 1 % 1099511627776).toNat

namespace Table

/-- A value filed under a text. -/
structure Entry (α : Type) where
  /-- What is left of the code after the digits that led here. -/
  code : Nat
  /-- The text. -/
  text : Text
  /-- The value. -/
  value : α
deriving DecidableEq, Repr

/-- The entry is filed under the given rest of a code and the given text. -/
def Entry.isAt {α : Type} (e : Entry α) (code : Nat) (text : Text) : Bool :=
  e.code == code && e.text == text

/-- A tree of entries. -/
inductive Tree (α : Type) where
  /-- Some entries, the newest first. -/
  | heap (entries : List (Entry α))
  /-- The entries whose code ends in zero, and those whose code ends in one. -/
  | fork (zero one : Tree α)
deriving DecidableEq, Repr

namespace Tree

variable {α : Type}

/-- The value filed under a code and a text. -/
def find? (code : Nat) (text : Text) : Tree α → Option α
  | heap entries => (entries.find? fun e => e.isAt code text).map Entry.value
  | fork zero one => if code % 2 = 0 then zero.find? (code / 2) text else one.find? (code / 2) text

/-- The entries whose code ends in the given digit, without it. -/
def ending (digit : Nat) (entries : List (Entry α)) : List (Entry α) :=
  entries.filterMap fun e => if e.code % 2 = digit then some { e with code := e.code / 2 } else none

/-- The most entries that stay together in a heap. -/
def mostTogether : Nat := 8

/-- A heap of entries, parted if there are too many of them. -/
def ofEntries (entries : List (Entry α)) : Tree α :=
  if entries.length ≤ mostTogether then heap entries
  else fork (heap (ending 0 entries)) (heap (ending 1 entries))

/-- Files a value under a code and a text, in the place of one that was filed there before. -/
def insert (code : Nat) (text : Text) (value : α) : Tree α → Tree α
  | heap entries => ofEntries (⟨code, text, value⟩ :: entries.filter fun e => !e.isAt code text)
  | fork zero one =>
    if code % 2 = 0 then fork (zero.insert (code / 2) text value) one
    else fork zero (one.insert (code / 2) text value)

/-- All values. -/
def values : Tree α → List α
  | heap entries => entries.map Entry.value
  | fork zero one => zero.values ++ one.values

/-- Parting a heap by the last digit of the codes loses nothing. -/
theorem find?_ending (code : Nat) (text : Text) (entries : List (Entry α)) :
    (heap (ending (code % 2) entries)).find? (code / 2) text = (heap entries).find? code text := by
  induction entries with
  | nil => rfl
  | cons e entries ih =>
    obtain ⟨c, t, a⟩ := e
    simp only [find?, ending, List.filterMap_cons, List.find?_cons, Entry.isAt] at ih ⊢
    by_cases hd : c % 2 = code % 2
    · have hc : (c / 2 == code / 2) = (c == code) := by
        rw [Bool.eq_iff_iff, beq_iff_eq, beq_iff_eq]; omega
      simp only [hd, ↓reduceIte, List.find?_cons, hc]
      split
      · rfl
      · exact ih
    · have hc : (c == code) = false := by rw [beq_eq_false_iff_ne]; omega
      simp only [hd, ↓reduceIte, hc, Bool.false_and]
      exact ih

theorem find?_ofEntries (code : Nat) (text : Text) (entries : List (Entry α)) :
    (ofEntries entries).find? code text = (heap entries).find? code text := by
  unfold ofEntries
  split
  · rfl
  · have h := find?_ending code text entries
    rcases Nat.mod_two_eq_zero_or_one code with hd | hd <;> rw [hd] at h <;> rw [← h] <;>
      simp [find?, hd]

/-- **What is found after filing a value**: it, in its place; elsewhere what was found before. -/
theorem find?_insert (tree : Tree α) (code code' : Nat) (text text' : Text) (value : α) :
    (tree.insert code text value).find? code' text' =
      if code' = code ∧ text' = text then some value else tree.find? code' text' := by
  induction tree generalizing code code' with
  | heap entries =>
    rw [insert, find?_ofEntries]
    by_cases h : code' = code ∧ text' = text
    · obtain ⟨rfl, rfl⟩ := h
      simp [find?, Entry.isAt]
    · have hne : ((code == code') && (text == text')) = false := by
        rw [Bool.eq_false_iff, ne_eq, Bool.and_eq_true, beq_iff_eq, beq_iff_eq]
        exact fun e => h ⟨e.1.symm, e.2.symm⟩
      simp only [find?, List.find?_cons, Entry.isAt, hne, List.find?_filter, h, ↓reduceIte]
      congr 2
      funext e
      by_cases he : e.code = code' ∧ e.text = text'
      · obtain ⟨rfl, rfl⟩ := he
        have hne' : ((e.code == code) && (e.text == text)) = false := by
          rw [Bool.eq_false_iff, ne_eq, Bool.and_eq_true, beq_iff_eq, beq_iff_eq]
          exact h
        simp [hne']
      · have he' : ((e.code == code') && (e.text == text')) = false := by
          rw [Bool.eq_false_iff, ne_eq, Bool.and_eq_true, beq_iff_eq, beq_iff_eq]
          exact he
        simp [he']
  | fork zero one ihz iho =>
    by_cases hd : code % 2 = 0 <;> by_cases hd' : code' % 2 = 0 <;>
      simp only [insert, find?, hd, hd', ↓reduceIte, ihz, iho]
    · have : (code' / 2 = code / 2) = (code' = code) := by rw [eq_iff_iff]; omega
      simp only [this]
    · have : ¬(code' = code ∧ text' = text) := fun h => hd' (h.1 ▸ hd)
      rw [if_neg this]
    · have : ¬(code' = code ∧ text' = text) := fun h => hd (h.1 ▸ hd')
      rw [if_neg this]
    · have : (code' / 2 = code / 2) = (code' = code) := by rw [eq_iff_iff]; omega
      simp only [this]

/-- What is found is one of the values. -/
theorem mem_values_of_find? {tree : Tree α} {code : Nat} {text : Text} {value : α}
    (h : tree.find? code text = some value) : value ∈ tree.values := by
  induction tree generalizing code with
  | heap entries =>
    simp only [find?, Option.map_eq_some_iff] at h
    obtain ⟨e, he, rfl⟩ := h
    exact List.mem_map_of_mem (List.mem_of_find?_eq_some he)
  | fork zero one ihz iho =>
    simp only [find?] at h
    split at h
    · exact List.mem_append_left _ (ihz h)
    · exact List.mem_append_right _ (iho h)

end Tree

end Table

/-- Values filed under texts, one under each at most. -/
structure Table (α : Type) where
  /-- The tree of the entries. -/
  tree : Table.Tree α := .heap []
deriving DecidableEq, Repr

namespace Table

variable {α : Type}

/-- The value filed under a text. -/
def find? (table : Table α) (t : Text) : Option α := table.tree.find? t.code t

/-- Something is filed under the text. -/
def contains (table : Table α) (t : Text) : Bool := (table.find? t).isSome

/-- Files a value under a text, in the place of one that was filed there before. -/
def insert (table : Table α) (t : Text) (value : α) : Table α := ⟨table.tree.insert t.code t value⟩

/-- All values. -/
def values (table : Table α) : List α := table.tree.values

@[simp] theorem find?_empty (t : Text) : ({} : Table α).find? t = none := rfl

@[simp] theorem contains_empty (t : Text) : ({} : Table α).contains t = false := rfl

/-- **All there is to know about a table.** -/
theorem find?_insert (table : Table α) (s t : Text) (value : α) :
    (table.insert s value).find? t = if t = s then some value else table.find? t := by
  unfold find? insert
  rw [Tree.find?_insert]
  by_cases h : t = s
  · simp [h]
  · simp [h]

@[simp] theorem find?_insert_self (table : Table α) (t : Text) (value : α) :
    (table.insert t value).find? t = some value := by simp [find?_insert]

@[simp] theorem contains_insert (table : Table α) (s t : Text) (value : α) :
    (table.insert s value).contains t = (t == s || table.contains t) := by
  unfold contains
  rw [find?_insert]
  by_cases h : t = s <;> simp [h]

theorem mem_values_of_find? {table : Table α} {t : Text} {value : α} (h : table.find? t = some value) :
    value ∈ table.values := Tree.mem_values_of_find? h

end Table

end SemiThue.Text
