/-
The bytes of a file.

Files mostly grow at their end. The bytes are therefore kept in reverse, together with their number,
and writing at the end takes no longer than what is written is long.
-/

set_option autoImplicit false

namespace SemiThue.Files

/-- The bytes of a file. -/
structure Contents where
  /-- The bytes, the last one first. -/
  backwards : List UInt8
  /-- How many bytes there are. -/
  size : Nat
  /-- The bytes are counted. -/
  size_eq : size = backwards.length
deriving DecidableEq, Repr

namespace Contents

/-- No bytes. -/
def empty : Contents := ⟨[], 0, List.length_nil.symm⟩

/-- The bytes in order. -/
def toList (c : Contents) : List UInt8 := c.backwards.reverse

/-- Bytes as the contents of a file. -/
def ofList (bytes : List UInt8) : Contents where
  backwards := bytes.reverse
  size := bytes.length
  size_eq := by simp

/-- **The contents after some bytes were written at a position.** They replace what stood there; a gap
before the position is filled with zeros. -/
def write (c : Contents) (position : Nat) (bytes : List UInt8) : Contents where
  backwards :=
    c.backwards.take (c.size - (position + bytes.length)) ++
      (bytes.reverse ++ (List.replicate (position - c.size) 0 ++ c.backwards.drop (c.size - position)))
  size := max c.size (position + bytes.length)
  size_eq := by
    have := c.size_eq
    simp only [List.length_append, List.length_take, List.length_reverse, List.length_replicate,
      List.length_drop]
    omega

@[simp] theorem toList_empty : empty.toList = [] := rfl

@[simp] theorem toList_ofList (bytes : List UInt8) : (ofList bytes).toList = bytes := by
  simp [toList, ofList]

theorem length_toList (c : Contents) : c.toList.length = c.size := by simp [toList, c.size_eq]

/-- What stood before the position stays, and so does what stood after the bytes that were written. -/
theorem toList_write (c : Contents) (position : Nat) (bytes : List UInt8) :
    (c.write position bytes).toList =
      c.toList.take position ++ List.replicate (position - c.size) 0 ++ bytes ++
        c.toList.drop (position + bytes.length) := by
  simp only [toList, write, List.reverse_append, List.reverse_reverse, List.reverse_replicate,
    List.take_reverse, List.drop_reverse, c.size_eq]

/-- What is written at the end comes last. -/
theorem toList_write_size (c : Contents) (bytes : List UInt8) :
    (c.write c.size bytes).toList = c.toList ++ bytes := by
  rw [toList_write, Nat.sub_self, List.take_of_length_le (Nat.le_of_eq c.length_toList),
    List.drop_eq_nil_of_le (by rw [length_toList]; omega)]
  simp

end Contents

end SemiThue.Files
