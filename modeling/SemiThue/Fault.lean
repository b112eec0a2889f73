/-
What can go wrong, by cause.

A fault names its cause and carries what the message about it needs; the wording is written once, in
`Fault.message`. Three constructors belong to explorations: one that a listener raises itself, one for
a unit of work that is put together wrongly, and one that wraps whatever else made a unit fail and
remembers at which text that was. One more is no failure at all: a listener may ask to leave the
program. Whoever handles failures only does not see that.
-/
import SemiThue.Text.Quoted
import SemiThue.Text.Utf8

set_option autoImplicit false

namespace SemiThue

/-! ## Refusals of the system -/

/-- Why the system refuses to open or to write. -/
inductive Refusal where
  /-- There is nothing at this place. -/
  | missing
  /-- A file stands where a directory is needed. -/
  | notDirectory
  /-- A directory stands where a file is needed. -/
  | isDirectory
  /-- There is no room for what was written. -/
  | full
  /-- A name is longer than names may be. -/
  | nameTooLong
deriving DecidableEq, Repr

namespace Refusal

/-- The number under which the system reports the refusal. -/
def code : Refusal → Int
  | .missing => 2
  | .notDirectory => 20
  | .isDirectory => 21
  | .full => 28
  | .nameTooLong => 36

/-- The wording of the refusal. -/
def message : Refusal → String
  | .missing => "No such file or directory"
  | .notDirectory => "Not a directory"
  | .isDirectory => "Is a directory"
  | .full => "No space left on device"
  | .nameTooLong => "File name too long"

end Refusal

/-- A fault reported by the system: its number, if it has one, its wording, and the path concerned. -/
structure SystemFault where
  /-- The number of the fault. -/
  code : Option Int
  /-- The wording of the fault. -/
  reason : String
  /-- The path that it is about. -/
  path : Option Text
deriving DecidableEq, Repr

namespace SystemFault

/-- A refusal that concerns a path. -/
def atPath (r : Refusal) (path : Text) : SystemFault := ⟨some r.code, r.message, some path⟩

/-- A write to a device or disk without room. -/
def noSpace : SystemFault := ⟨some Refusal.full.code, Refusal.full.message, none⟩

/-- The fault in words. -/
def message (e : SystemFault) : String :=
  match e.code, e.path with
  | none, _ => e.reason
  | some code, none => s!"[Errno {code}] {e.reason}"
  | some code, some path => s!"[Errno {code}] {e.reason}: {path.quoted}"

end SystemFault

/-! ## Faults -/

/-- A cause of failure. -/
inductive Fault where
  /-- A listener refuses a value. -/
  | refused (message : String)
  /-- A listener is not in a state to go on. -/
  | broken (message : String)
  /-- A listener asks to leave the program. -/
  | exit (message : String)
  /-- The system refuses. -/
  | system (e : SystemFault)
  /-- Bytes are no text. -/
  | flawed (f : Utf8.Flaw)
  /-- A rule has an empty left side. -/
  | emptyLeftSide
  /-- The bound on the length of words is not positive. -/
  | boundNotPositive (bound : Int)
  /-- The number of workers is not positive. -/
  | workersNotPositive (workers : Int)
  /-- There is no verdict of this name. -/
  | unknownVerdict (name : Text)
  /-- A word was sent to a file sink that is not open. -/
  | sinkNotOpen (path : Text)
  /-- A path holds the null character. -/
  | nullInPath
  /-- A value of this kind cannot be kept in a set. -/
  | unkeyable (kind : String)
  /-- A rule was to be applied to a value of this kind. -/
  | notRewritable (kind : String)
  /-- A duration is not finite and cannot be counted in minutes. -/
  | uncountable
  /-- A whole number is too great for the binary format. -/
  | beyondFormat
  /-- The margin is needed and was not given as a number. -/
  | marginLost
  /-- The number of workers was not given as a number. -/
  | workersLost
  /-- A derivation was asked for before anything was recorded. -/
  | nothingRecorded
  /-- A derivation was asked for of a text that was never derived. -/
  | neverDerived (target root : Text)
  /-- No recorded steps lead from the root to this text. -/
  | noPath (root target : Text)
  /-- A unit was handed to a pool that takes no more. -/
  | poolClosed
  /-- A listener reports a failed exploration itself. -/
  | exploration (message : String) (unit : Option Text)
  /-- A unit of work is put together wrongly. -/
  | workItem (message : String) (unit : Option Text)
  /-- A unit of work failed at this text for another cause. -/
  | wrapped (unit : Text) (cause : Fault)
deriving DecidableEq, Repr

namespace Fault

/-- A failed exploration in words, with the text that was being expanded if it is known. -/
def explorationMessage (message : String) : Option Text → String
  | some unit => s!"Exploration failed while expanding {unit.quoted}: {message}"
  | none => s!"Exploration failed: {message}"

/-- The fault in words. -/
def message : Fault → String
  | .refused message => message
  | .broken message => message
  | .exit message => message
  | .system e => e.message
  | .flawed f => f.message
  | .emptyLeftSide => "Rewrite rule needs a non-empty left side"
  | .boundNotPositive bound => s!"max_length must be positive, got {bound}"
  | .workersNotPositive workers => s!"max_workers must be positive, got {workers}"
  | .unknownVerdict name => s!"{name.quoted} is not a valid Verdict"
  | .sinkNotOpen path => s!"FileSink for {path.toString} is not open"
  | .nullInPath => "embedded null byte"
  | .unkeyable kind => s!"unhashable type: '{kind}'"
  | .notRewritable kind => s!"'{kind}' object has no attribute 'replace'"
  | .uncountable => "cannot convert float NaN to integer"
  | .beyondFormat => "int too large to convert to float"
  | .marginLost => "unsupported operand type(s) for +: 'int' and 'list'"
  | .workersLost => "'<=' not supported between instances of 'list' and 'int'"
  | .nothingRecorded => "Nothing recorded yet; call start() or run an explorer first"
  | .neverDerived target root => s!"'{target.toString}' was never derived from '{root.toString}'"
  | .noPath root target => s!"No path between {root.toString} and {target.toString}."
  | .poolClosed => "cannot schedule new futures after shutdown"
  | .exploration message unit => explorationMessage message unit
  | .workItem message unit => explorationMessage message unit
  | .wrapped unit cause => explorationMessage cause.message (some unit)

/-- The fault is a failure, and is handled where failures are. -/
def isFailure : Fault → Bool
  | .exit _ => false
  | _ => true

/-- The fault says already that an exploration failed, so that it needs no wrapping. -/
def isExploration : Fault → Bool
  | .exploration .. | .workItem .. | .wrapped .. => true
  | _ => false

/-- The text at which an exploration failed, if the fault knows it. -/
def unit? : Fault → Option Text
  | .exploration _ unit | .workItem _ unit => unit
  | .wrapped unit _ => some unit
  | _ => none

/-- **The failure that a run reports** when a unit fails: the fault itself if it is about an
exploration, and else a new one that wraps it. -/
def atUnit (unit : Text) (fault : Fault) : Fault :=
  if fault.isExploration then fault else .wrapped unit fault

/-- What a run reports is always about an exploration. -/
@[simp] theorem isExploration_atUnit (unit : Text) (fault : Fault) :
    (atUnit unit fault).isExploration = true := by
  unfold atUnit
  split
  · assumption
  · rfl

end Fault

end SemiThue
