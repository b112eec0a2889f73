/-
Writing to a file.

A path that leads to a file, or to a place where a file can be made, goes on leading there when the file is
written: on its way it comes only by directories, and those are left alone (`locate_put`). What is at the
place then is said by `Node.written`, for all that a path can lead to: a device stays what it is, and anything
else is a file with the bytes written so far.

As long as nothing was refused, nothing is kept back. An attempt to write is then answered by the medium, and
if it takes the bytes they stand behind those written before (`Handle.Behind.write`). A refused attempt leaves
bytes behind that may still get to the medium later; nothing is said about the file from then on.
-/
import Mathlib.Data.List.Basic
import SemiThue.Files.Handle

set_option autoImplicit false

namespace SemiThue.Files

/-! ## Contents -/

namespace Contents

/-- Contents are known by their bytes. -/
theorem eq_of_toList_eq {c c' : Contents} (same : c.toList = c'.toList) : c = c' := by
  obtain ⟨backwards, size, size_eq⟩ := c
  obtain ⟨backwards', size', size_eq'⟩ := c'
  obtain rfl : backwards = backwards' := List.reverse_injective same
  obtain rfl : size = size' := size_eq.trans size_eq'.symm
  rfl

/-- Bytes written behind all others. -/
theorem write_ofList (bytes more : List UInt8) :
    (ofList bytes).write bytes.length more = ofList (bytes ++ more) := by
  refine eq_of_toList_eq ?_
  rw [toList_ofList, show bytes.length = (ofList bytes).size from rfl, toList_write_size, toList_ofList]

end Contents

/-! ## What is at a place -/

/-- The medium of what may be at a place. -/
def Medium.under : Option Node → Medium
  | some (.file _ medium) | some (.device medium) => medium
  | _ => .disk

/-- **What is at a place once bytes were written there**, whatever was there before. -/
def Node.written : Option Node → List UInt8 → Node
  | some (.device medium), _ => .device medium
  | found, bytes => .file (.ofList bytes) (.under found)

/-- The bytes of a file that may be at a place. -/
def Node.kept : Option Node → List UInt8
  | some (.file contents _) => contents.toList
  | _ => []

theorem Medium.under_written (found : Option Node) (bytes : List UInt8) :
    under (some (Node.written found bytes)) = under found := by
  unfold Node.written
  split <;> rfl

/-- What was written is written over. -/
theorem Node.written_written (found : Option Node) (bytes bytes' : List UInt8) :
    written (some (written found bytes)) bytes' = written found bytes' := by
  cases found with
  | none => rfl
  | some node => cases node <;> rfl

/-- A file to which nothing was written stays as it is. -/
theorem Node.written_kept (contents : Contents) (medium : Medium) :
    written (some (.file contents medium)) (kept (some (.file contents medium))) = .file contents medium := by
  have same : Contents.ofList contents.toList = contents := Contents.eq_of_toList_eq (Contents.toList_ofList _)
  simp only [written, kept, same]
  rfl

/-- What was written is kept, unless it went to a device. -/
theorem Node.written_kept_written (found : Option Node) (bytes : List UInt8) :
    written found (kept (some (written found bytes))) = written found bytes := by
  have kept_ofList (medium : Medium) : kept (some (.file (.ofList bytes) medium)) = bytes :=
    Contents.toList_ofList bytes
  cases found with
  | none => exact congrArg (written none) (kept_ofList _)
  | some node =>
    cases node with
    | device medium => rfl
    | directory | file _ _ => exact congrArg (written _) (kept_ofList _)

namespace Volume

variable {v : Volume} {place p : Place} {node : Node} {found : Option Node} {path : Path}

theorem medium_eq (v : Volume) (place : Place) : v.medium place = .under (v.node? place) := by
  unfold medium Medium.under
  cases v.node? place with
  | none => rfl
  | some node => cases node <;> rfl

theorem node?_tried (v : Volume) (place : Place) : v.tried.node? place = v.node? place := rfl

/-! ## Putting something at a place -/

theorem node?_of_ne_nil (some_name : p ≠ []) :
    v.node? p = (v.entries.find? fun e => e.1 == p).map Prod.snd := if_neg some_name

/-- What is put at a place is there. -/
theorem node?_put_self (some_name : place ≠ []) : (v.put place node).node? place = some node := by
  rw [node?_of_ne_nil some_name]
  simp only [put]
  split
  · rename_i there
    obtain ⟨e, mem, at_place⟩ := List.any_eq_true.1 there
    have marks : ((fun e : Place × Node => e.1 == place) ∘
        fun e => if e.1 == place then (place, node) else e) = fun e => e.1 == place := by
      funext e
      by_cases at_place : e.1 = place <;> simp [at_place]
    rw [List.find?_map, marks]
    cases first : v.entries.find? fun e => e.1 == place with
    | none => exact absurd at_place (List.find?_eq_none.1 first e mem)
    | some e =>
      have at_place := List.find?_some first
      rw [Option.map_some, if_pos at_place, Option.map_some]
  · rename_i new
    have nowhere := List.find?_eq_none.2 fun e mem at_place => new (List.any_eq_true.2 ⟨e, mem, at_place⟩)
    rw [List.find?_append, nowhere]
    simp

/-- Nothing changes elsewhere. -/
theorem node?_put_of_ne (other : p ≠ place) : (v.put place node).node? p = v.node? p := by
  by_cases root : p = []
  · rw [node?, if_pos root, node?, if_pos root]
  · rw [node?_of_ne_nil root, node?_of_ne_nil root]
    simp only [put]
    have not_there : (place == p) = false := beq_false_of_ne other.symm
    split
    · have marks : ((fun e : Place × Node => e.1 == p) ∘
          fun e => if e.1 == place then (place, node) else e) = fun e => e.1 == p := by
        funext e
        by_cases at_place : e.1 = place <;> simp [at_place]
      rw [List.find?_map, marks]
      cases first : v.entries.find? fun e => e.1 == p with
      | none => rfl
      | some e =>
        have at_p : e.1 = p := by simpa using List.find?_some first
        rw [Option.map_some, if_neg (by simpa [at_p] using other)]
    · rw [List.find?_append]
      simp [not_there]

/-! ## Paths go on leading where they led -/

theorem follow_tried (v : Volume) (place : Place) (steps : List Text) :
    v.tried.follow place steps = v.follow place steps := by
  induction steps generalizing place with
  | nil => rfl
  | cons step steps ih => simp only [follow, node?_tried, ih]

theorem locate_tried (v : Volume) (path : Path) : v.tried.locate path = v.locate path := by
  unfold locate
  simp only [follow_tried]
  rfl

theorem node?_of_follow {from_ : Place} {steps : List Text}
    (leads : v.follow from_ steps = .ok (place, found)) : v.node? place = found := by
  induction steps generalizing from_ with
  | nil =>
    cases leads
    rfl
  | cons step steps ih =>
    unfold follow at leads
    split at leads
    · split at leads
      · cases leads
      · split at leads
        · cases leads
        · exact ih leads
    · cases leads
    · cases leads

/-- Where steps lead that do not end in a directory, nothing but directories was come by. -/
theorem follow_put {from_ : Place} {steps : List Text} (some_name : place ≠ [])
    (no_directory : found ≠ some .directory) (leads : v.follow from_ steps = .ok (place, found)) :
    (v.put place node).follow from_ steps = .ok (place, some node) := by
  have last := node?_of_follow leads
  induction steps generalizing from_ with
  | nil =>
    obtain rfl : from_ = place := by
      cases leads
      rfl
    rw [follow, node?_put_self some_name]
  | cons step steps ih =>
    unfold follow at leads ⊢
    split at leads
    · rename_i directory
      have way : from_ ≠ place := by
        rintro rfl
        exact no_directory (last.symm.trans directory)
      rw [node?_put_of_ne way, directory]
      split at leads
      · cases leads
      · rename_i short
        split at leads
        · cases leads
        · rename_i there
          simp only [if_neg short]
          have further : ¬(steps ≠ [] ∧ ((v.put place node).node? (next from_ step)).isNone) := by
            rintro ⟨more, missing⟩
            by_cases last : next from_ step = place
            · rw [last, node?_put_self some_name] at missing
              cases missing
            · rw [node?_put_of_ne last] at missing
              exact there ⟨more, missing⟩
          rw [if_neg further]
          exact ih leads
    · cases leads
    · cases leads

theorem node?_of_locate (leads : v.locate path = .ok (place, found)) : v.node? place = found := by
  unfold locate at leads
  split at leads
  · cases leads
  · simp only at leads
    split at leads
    · rename_i result follows
      cases leads
      split at follows
      · cases follows
      · exact node?_of_follow follows
    · cases leads

/-- **A path goes on leading to where something is put**, unless that was a directory. -/
theorem locate_put (no_directory : found ≠ some .directory)
    (leads : v.locate path = .ok (place, found)) :
    (v.put place node).locate path = .ok (place, some node) := by
  have some_name : place ≠ [] := by
    rintro rfl
    exact no_directory (node?_of_locate leads).symm
  unfold locate at leads ⊢
  split at leads
  · cases leads
  · rename_i spelled
    rw [if_neg spelled]
    simp only at leads ⊢
    split at leads
    · rename_i result follows
      cases leads
      split at follows
      · cases follows
      · rename_i short
        have here : (v.put place node).here = v.here := rfl
        rw [if_neg short, here, follow_put some_name no_directory follows]
    · cases leads

/-! ## Opening and storing -/

/-- **A file that has opened** holds what it is to keep, unless it is a device, and its path leads to it. -/
theorem openFile_keeps {v' : Volume} {h : Handle} {appending : Bool}
    (opened : v.openFile path appending = .ok (v', h)) :
    ∃ place found, v.locate path = .ok (place, found) ∧ h = ⟨place, 0, appending, []⟩ ∧
      v'.locate path = .ok (place, some (.written found (if appending then Node.kept found else []))) ∧
      v'.attempts = v.attempts := by
  unfold openFile at opened
  split at opened
  · cases opened
  · cases opened
  · rename_i place leads
    cases opened
    refine ⟨place, none, leads, rfl, ?_, rfl⟩
    rw [locate_put (by simp) leads]
    cases appending <;> rfl
  · rename_i place medium leads
    cases opened
    exact ⟨place, _, leads, rfl, leads, rfl⟩
  · rename_i place contents medium leads
    cases opened
    refine ⟨place, _, leads, rfl, ?_, ?_⟩
    · cases appending with
      | false => exact locate_put (by simp) leads
      | true =>
        simp only [if_true]
        rw [leads, Node.written_kept]
    · cases appending <;> rfl

/-- A path can be opened exactly if it leads somewhere, and not to a directory. -/
theorem exists_openFile_iff (v : Volume) (path : Path) (appending : Bool) :
    (∃ opened, v.openFile path appending = .ok opened) ↔
      ∃ place found, v.locate path = .ok (place, found) ∧ found ≠ some .directory := by
  unfold openFile
  cases leads : v.locate path with
  | error fault => simp
  | ok there =>
    obtain ⟨place, found⟩ := there
    cases found with
    | none => simp
    | some node => cases node <;> simp

/-- A file that has opened for writing from its beginning holds nothing yet. -/
theorem openFile_spec {v' : Volume} {h : Handle} (opened : v.openFile path false = .ok (v', h)) :
    ∃ place found, v.locate path = .ok (place, found) ∧ h = ⟨place, 0, false, []⟩ ∧
      v'.locate path = .ok (place, some (.written found [])) ∧ v'.attempts = v.attempts :=
  openFile_keeps opened

theorem written_ne_directory (found : Option Node) (bytes : List UInt8) :
    some (Node.written found bytes) ≠ some .directory := by
  unfold Node.written
  split <;> simp

/-- A path that leads to what was written has it as its contents, unless it leads to a device. -/
theorem contents?_of_locate {bytes : List UInt8}
    (leads : v.locate path = .ok (place, some (.written found bytes)))
    (no_device : ∀ medium, found ≠ some (.device medium)) : v.contents? path = some bytes := by
  unfold contents?
  rw [leads]
  unfold Node.written
  cases found with
  | none => exact congrArg some (Contents.toList_ofList bytes)
  | some node =>
    cases node with
    | device medium => exact absurd rfl (no_device medium)
    | directory | file _ _ => exact congrArg some (Contents.toList_ofList bytes)

theorem contents?_getD_eq_kept (leads : v.locate path = .ok (place, found)) :
    (v.contents? path).getD [] = Node.kept found := by
  unfold contents?
  rw [leads]
  cases found with
  | none => rfl
  | some node => cases node <;> rfl

/-- Bytes that are stored stand behind those written before. -/
theorem locate_store {h : Handle} {bytes more : List UInt8} (at_place : h.place = place)
    (at_end : h.appending = true ∨ h.position = bytes.length)
    (leads : v.locate path = .ok (place, some (.written found bytes))) :
    (v.store h more).locate path = .ok (place, some (.written found (bytes ++ more))) := by
  have no_directory := written_ne_directory found bytes
  have there := node?_of_locate leads
  unfold Node.written at leads no_directory there ⊢
  unfold store
  rw [at_place]
  split at there <;> rename_i device
  · rw [there]
    exact leads
  · have position : (if h.appending then (Contents.ofList bytes).size else h.position) = bytes.length := by
      rcases at_end with appending | at_end
      · rw [if_pos appending]
        rfl
      · rw [at_end]
        exact ite_self _
    rw [there]
    simp only [position, Contents.write_ofList]
    exact locate_put no_directory leads

theorem attempts_store (v : Volume) (h : Handle) (bytes : List UInt8) :
    (v.store h bytes).attempts = v.attempts := by
  unfold store
  split <;> rfl

end Volume

/-! ## Writing and closing -/

namespace Handle

variable {v : Volume} {h : Handle} {place : Place} {found : Option Node} {path : Path} {bytes more : List UInt8}

/-- **Nothing is kept back**, and what is written next goes behind the bytes that are there. -/
structure Behind (h : Handle) (place : Place) (bytes : List UInt8) : Prop where
  place : h.place = place
  at_end : h.appending = true ∨ h.position = bytes.length
  settled : h.pending = []

/-- So many bytes were taken. -/
def moved (h : Handle) (n : Nat) : Handle := { h with position := h.position + n, pending := [] }

theorem Behind.moved (behind : h.Behind place bytes) (more : List UInt8) :
    (h.moved more.length).Behind place (bytes ++ more) := by
  refine ⟨behind.place, behind.at_end.imp_right fun at_end => ?_, rfl⟩
  rw [List.length_append, ← at_end]
  rfl

theorem Behind.medium_eq (behind : h.Behind place bytes)
    (leads : v.locate path = .ok (place, some (.written found bytes))) : v.medium h.place = Medium.under found := by
  rw [behind.place, v.medium_eq, Volume.node?_of_locate leads, Medium.under_written]

namespace Behind

/-- **An attempt to write** is answered by the medium, and adds the bytes if they are taken. -/
theorem flush (behind : h.Behind place bytes) (some_bytes : more ≠ [])
    (leads : v.locate path = .ok (place, some (.written found bytes))) :
    (Handle.flush ({ h with pending := more }, v)).2 = (Medium.under found).onWrite v.attempts ∧
      ((Medium.under found).onWrite v.attempts = none →
        ∃ v', Handle.flush ({ h with pending := more }, v) = ((h.moved more.length, v'), none) ∧
          v'.locate path = .ok (place, some (.written found (bytes ++ more))) ∧
          v'.attempts = v.attempts + 1) := by
  have pending : more.isEmpty = false := by simpa using some_bytes
  unfold Handle.flush
  simp only [pending, Bool.false_eq_true, if_false, behind.medium_eq leads]
  cases (Medium.under found).onWrite v.attempts with
  | some refusal => exact ⟨rfl, nofun⟩
  | none =>
    refine ⟨rfl, fun _ => ⟨(v.store { h with pending := more } more).tried, rfl, ?_, ?_⟩⟩
    · exact (Volume.locate_tried _ _).trans (Volume.locate_store behind.place behind.at_end leads)
    · exact congrArg (· + 1) (Volume.attempts_store v _ more)

/-- **Sending bytes when nothing is kept back** comes to one attempt, however many they are. -/
theorem write (behind : h.Behind place bytes) (some_bytes : more ≠ [])
    (leads : v.locate path = .ok (place, some (.written found bytes))) :
    (Handle.write more (h, v)).2 = (Medium.under found).onWrite v.attempts ∧
      ((Medium.under found).onWrite v.attempts = none →
        ∃ v', Handle.write more (h, v) = ((h.moved more.length, v'), none) ∧
          v'.locate path = .ok (place, some (.written found (bytes ++ more))) ∧
          v'.attempts = v.attempts + 1) := by
  obtain ⟨answer, taken⟩ := behind.flush some_bytes leads
  unfold Handle.write
  simp only [behind.settled, List.length_nil, Nat.zero_add, List.nil_append]
  split
  · exact ⟨answer, taken⟩
  · -- more than is ever kept back goes to the medium by itself
    have nothing : Handle.flush (h, v) = ((h, v), none) := by
      unfold Handle.flush
      simp [behind.settled]
    rw [nothing]
    simp only [writeThrough]
    cases medium : (Medium.under found).onWrite v.attempts with
    | some refusal =>
      refine ⟨?_, nofun⟩
      rw [medium] at answer
      split
      · rename_i h v' refusal' refused
        rw [refused] at answer
        exact answer
      · rename_i accepted
        cases flushed : Handle.flush ({ h with pending := more }, v) with
        | mk s fault =>
          rw [flushed] at answer
          obtain rfl : fault = some refusal := answer
          exact absurd flushed (accepted s.1 s.2 refusal)
    | none =>
      obtain ⟨v', flushed, rest⟩ := taken medium
      rw [flushed]
      exact ⟨rfl, fun _ => ⟨v', rfl, rest⟩⟩

/-- Closing when nothing is kept back is answered by the medium. -/
theorem close (behind : h.Behind place bytes) (leads : v.locate path = .ok (place, some (.written found bytes))) :
    Handle.close (h, v) = (v.tried, (Medium.under found).onClose v.attempts) := by
  unfold Handle.close Handle.flush
  simp only [behind.settled, List.isEmpty_nil, if_true, behind.medium_eq leads]

end Behind

/-- Sending bytes from where those written so far end. -/
theorem write_spec (some_bytes : more ≠ [])
    (leads : v.locate path = .ok (place, some (.written found bytes))) :
    (write more (⟨place, bytes.length, false, []⟩, v)).2 = (Medium.under found).onWrite v.attempts ∧
      ((Medium.under found).onWrite v.attempts = none →
        ∃ v', write more (⟨place, bytes.length, false, []⟩, v) =
            ((⟨place, (bytes ++ more).length, false, []⟩, v'), none) ∧
          v'.locate path = .ok (place, some (.written found (bytes ++ more))) ∧
          v'.attempts = v.attempts + 1) := by
  have behind : Behind ⟨place, bytes.length, false, []⟩ place bytes := ⟨rfl, .inr rfl, rfl⟩
  rw [List.length_append]
  exact behind.write some_bytes leads

theorem close_spec (leads : v.locate path = .ok (place, some (.written found bytes))) :
    close (⟨place, bytes.length, false, []⟩, v) =
      (v.tried, (Medium.under found).onClose v.attempts) :=
  Behind.close ⟨rfl, .inr rfl, rfl⟩ leads

end Handle

end SemiThue.Files
