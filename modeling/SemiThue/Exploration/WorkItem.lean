/-
Units of work, checked before they are scheduled.

A unit consists of a text, somebody to tell words to, and the set of visited texts of its run. The
checks are made in this order, and the first that fails is reported; once the text is known, it is
reported along with the fault.
-/
import SemiThue.Fault
import SemiThue.Foreign

set_option autoImplicit false

namespace SemiThue.Exploration

/-- The fault of a unit whose text is none. -/
def textless (f : Foreign) : Fault := .workItem s!"text must be a string, got {f.kind}" none

/-- The text supplied for a unit. -/
def unitText : Supplied Text → Except Fault Text
  | .fitting text => .ok text
  | .foreign f => .error (textless f)

/-- **A checked unit of work**: its text. -/
def workItem (text : Supplied Text) (callable : Bool) (visited : Supplied Unit) : Except Fault Text :=
  match unitText text with
  | .error fault => .error fault
  | .ok text =>
    if !callable then .error (.workItem "on_word must be callable" (some text))
    else
      match visited with
      | .fitting _ => .ok text
      | .foreign f => .error (.workItem s!"seen must be a SeenSet, got {f.kind}" (some text))

/-- The set of visited texts of a run that begins. Its start is in it, if it can be kept in a set. -/
def visitedAt : Supplied Text → Except Fault Unit
  | .fitting _ => .ok ()
  | .foreign f => if f.keyable then .ok () else .error (.unkeyable f.kind)

/-- **The unit with which a run on a pool begins.** -/
def rootItem (start : Supplied Text) : Except Fault Text := do
  let visited ← visitedAt start
  workItem start true (.fitting visited)

end SemiThue.Exploration
