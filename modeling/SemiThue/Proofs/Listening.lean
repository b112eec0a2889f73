/-
Listening in on a listener.

What an exploration tells, and what it is answered, is not part of its state: the state of the
listener is all that is kept. A listener can however be overheard, that is, be replaced by one that
answers alike and keeps a log of its calls beside its own state. Everything that is said about the
calls of a run is said about the run with the overheard listener.

Nothing is lost by that. An exploration never looks at the state of its listener, so the run with the
overheard listener makes the same moves. Taking the log away again commutes with each move of a pool
(`Pool.move?_forget`) and with the loop of the sequential strategy (`Sequential.run_forget`), and a run
ends in the same way whether its listener is overheard or not (`Explorer.run_forget`).
-/
import SemiThue.Exploration.Explorer

set_option autoImplicit false

namespace SemiThue.Exploration

/-- One call of a listener, with its answer. -/
structure Call where
  /-- The word told. -/
  word : Text
  /-- How many texts were outstanding. -/
  outstanding : Outstanding
  /-- The fault with which the listener answered, if it did. -/
  fault : Option Fault
deriving DecidableEq, Repr

/-- The call was answered with a failure. -/
def Call.failed (c : Call) : Bool := c.fault.any Fault.isFailure

/-- The state of an overheard listener: its calls, the newest first, and its own state. -/
abbrev Heard (σ : Type) := List Call × σ

variable {σ : Type}

namespace Listener

/-- **The overheard listener**: it answers alike, and keeps a log of its calls. -/
def overheard (listener : Listener σ) : Listener (Heard σ) := fun outstanding word h =>
  match listener outstanding word h.2 with
  | (heard, fault) => ((⟨word, outstanding, fault⟩ :: h.1, heard), fault)

/-- The listener never refuses a word. -/
def Assents (listener : Listener σ) : Prop := ∀ n word heard, (listener n word heard).2 = none

/-- The listener never asks to leave: it takes a word or fails. -/
def Stays (listener : Listener σ) : Prop :=
  ∀ n word heard fault, (listener n word heard).2 = some fault → fault.isFailure = true

/-- A listener that stays does not answer with anything but a failure. -/
theorem Stays.false_of_exit {listener : Listener σ} (stays : listener.Stays) {n : Outstanding}
    {word : Text} {heard heard' : σ} {fault : Fault}
    (answer : listener n word heard = (heard', some fault)) (exit : fault.isFailure = false) : False := by
  rw [stays n word heard fault (congrArg Prod.snd answer)] at exit
  cases exit

theorem Assents.stays {listener : Listener σ} (assents : listener.Assents) : listener.Stays := by
  intro n word heard fault answer
  rw [assents] at answer
  cases answer

/-- The listener that goes through the same states and takes every word. -/
def obliging (listener : Listener σ) : Listener σ := fun n word heard => ((listener n word heard).1, none)

theorem assents_obliging (listener : Listener σ) : listener.obliging.Assents := fun _ _ _ => rfl

/-- The listener that takes every word. -/
def taking : Listener Unit := fun _ _ heard => (heard, none)

theorem assents_taking : taking.Assents := fun _ _ _ => rfl

/-- The listener that answers every word with a fault. -/
def refusing (fault : Fault) : Listener Unit := fun _ _ heard => (heard, some fault)

/-- The listener that counts the words, and answers one of them with a fault. -/
def refusingNth (n : Nat) (fault : Fault) : Listener Nat := fun _ _ heard =>
  (heard + 1, if heard = n then some fault else none)

theorem stays_refusingNth {n : Nat} {fault : Fault} (failure : fault.isFailure = true) :
    (refusingNth n fault).Stays := by
  intro _ word heard fault' answer
  simp only [refusingNth] at answer
  split at answer
  · cases answer
    exact failure
  · cases answer

theorem overheard_apply (listener : Listener σ) (n : Outstanding) (word : Text) (h : Heard σ) :
    listener.overheard n word h =
      ((⟨word, n, (listener n word h.2).2⟩ :: h.1, (listener n word h.2).1),
        (listener n word h.2).2) := rfl

/-- Whether a listener stays does not depend on its being overheard. -/
theorem Stays.overheard {listener : Listener σ} (stays : listener.Stays) : listener.overheard.Stays := by
  intro n word heard fault answer
  rw [overheard_apply] at answer
  exact stays n word heard.2 fault answer

/-- An answer is in the log with its word, and it is the answer of the listener itself. -/
theorem log_of_answer {listener : Listener σ} {n : Outstanding} {word : Text} {h h' : Heard σ}
    {fault : Option Fault} (answer : listener.overheard n word h = (h', fault)) :
    h'.1 = ⟨word, n, fault⟩ :: h.1 ∧ fault = (listener n word h.2).2 := by
  rw [overheard_apply] at answer
  obtain ⟨rfl, rfl⟩ := Prod.mk.inj answer
  exact ⟨rfl, rfl⟩

end Listener

namespace Trail

/-- The calls that were made, the newest first. -/
def calls (t : Trail (Heard σ)) : List Call := t.heard.1

/-- The words that were told, the newest first. -/
def told (t : Trail (Heard σ)) : List Text := t.calls.map Call.word

/-- Nothing happened yet: no text was taken up, nothing counted and nothing told. -/
structure Fresh (t : Trail (Heard σ)) : Prop where
  /-- No text was taken up. -/
  taken : t.taken = []
  /-- Nothing was counted. -/
  tally : t.tally = {}
  /-- Nothing was told. -/
  calls : t.calls = []

/-! ## What the operations on a trail leave alone -/

section Operations

variable {ρ : Type} (t : Trail ρ) (text : Text) (a : Application) (level : Level) (message : String)

@[simp] theorem taken_opened : (t.opened text).taken = text :: t.taken := rfl
@[simp] theorem tally_opened : (t.opened text).tally = t.tally := rfl
@[simp] theorem heard_opened : (t.opened text).heard = t.heard := rfl

@[simp] theorem taken_counted : (t.counted a).taken = t.taken := rfl
@[simp] theorem tally_counted : (t.counted a).tally = t.tally.count a.verdict := rfl
@[simp] theorem heard_counted : (t.counted a).heard = t.heard := rfl

@[simp] theorem taken_entered : (t.entered a).taken = t.taken := rfl
@[simp] theorem tally_entered : (t.entered a).tally = t.tally := rfl
@[simp] theorem heard_entered : (t.entered a).heard = t.heard := rfl

@[simp] theorem taken_linked : (t.linked a).taken = t.taken := rfl
@[simp] theorem tally_linked : (t.linked a).tally = t.tally := rfl
@[simp] theorem heard_linked : (t.linked a).heard = t.heard := rfl

@[simp] theorem taken_recorded : (t.recorded a).taken = t.taken := rfl
@[simp] theorem tally_recorded : (t.recorded a).tally = t.tally := rfl
@[simp] theorem heard_recorded : (t.recorded a).heard = t.heard := rfl

@[simp] theorem taken_noted : (t.noted level message).taken = t.taken := rfl
@[simp] theorem tally_noted : (t.noted level message).tally = t.tally := rfl
@[simp] theorem heard_noted : (t.noted level message).heard = t.heard := rfl

@[simp] theorem taken_announced : (t.announced a).taken = t.taken := by
  unfold announced; split <;> rfl

@[simp] theorem tally_announced : (t.announced a).tally = t.tally := by
  unfold announced; split <;> rfl

@[simp] theorem heard_announced : (t.announced a).heard = t.heard := by
  unfold announced; split <;> rfl

@[simp] theorem graph_announced : (t.announced a).graph = t.graph := by
  unfold announced; split <;> rfl

@[simp] theorem taken_took : (t.took a).taken = t.taken := by simp [took]

@[simp] theorem tally_took : (t.took a).tally = t.tally.count a.verdict := by simp [took]

@[simp] theorem heard_took : (t.took a).heard = t.heard := by simp [took]

theorem tell_eq (listener : Listener ρ) (n : Outstanding) (word : Text) :
    Trail.tell listener n word t =
      ({ t with heard := (listener n word t.heard).1 }, (listener n word t.heard).2) := rfl

end Operations

end Trail

/-- A run begins with a fresh trail. -/
theorem Explorer.fresh_openTrail (e : Explorer) (start : Text) (journal : Journal) (heard : σ) :
    (e.openTrail start journal (([], heard) : Heard σ)).Fresh := ⟨rfl, rfl, rfl⟩

end SemiThue.Exploration
