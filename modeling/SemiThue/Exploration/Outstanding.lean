/-
The count of texts that are to be taken up or under way.

Both strategies keep it by hand: it goes up when a text is scheduled and down when a text is done. A
run on a pool waits until nothing is outstanding. Nothing prevents the count from being set below
zero; then nothing is outstanding either.
-/

set_option autoImplicit false

namespace SemiThue.Exploration

/-- How many texts are to be taken up or under way. -/
abbrev Outstanding := Int

namespace Outstanding

/-- One more. -/
def up (n : Outstanding) : Outstanding := n + 1

/-- One less. -/
def down (n : Outstanding) : Outstanding := n - 1

/-- Nothing is outstanding. -/
def isSettled (n : Outstanding) : Bool := n ≤ 0

@[simp] theorem up_eq (n : Outstanding) : n.up = n + 1 := rfl

@[simp] theorem down_eq (n : Outstanding) : n.down = n - 1 := rfl

@[simp] theorem isSettled_iff (n : Outstanding) : n.isSettled = true ↔ n ≤ 0 := by simp [isSettled]

end Outstanding

end SemiThue.Exploration
