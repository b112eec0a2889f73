/-
The life of a file sink.

A sink is made closed. Then it is opened, told words and closed, in any order, also by blocks around which it is
open; a block may end in a fault, which may be caught further out. All that the sink and its file know of this is one
row of calls (`Work.log`). So everything is said of rows of calls: the sink is open exactly after the calls that leave
it open, and the file holds the words that were taken, as long as none of them was refused by the medium (`Standing`).

A refusal at closing does no harm to the contents, for nothing is kept back then, and neither does one at opening.
-/
import SemiThue.Proofs.Sink.Delivery

set_option autoImplicit false

namespace SemiThue.Sink.File

open SemiThue.Files

/-! ## Calls -/

/-- A way to use a sink. -/
inductive Use where
  /-- It is opened. -/
  | opening
  /-- It is told a word. -/
  | word (w : Text)
  /-- It is closed. -/
  | closing
deriving DecidableEq, Repr

/-- The sink is used. -/
def Use.perform : Use → Action (File × Volume)
  | .opening, s => openFile s
  | .word w, s => write w s
  | .closing, s => ((close s).1, (close s).2.map .system)

/-- A call of a sink. -/
structure Call where
  /-- What was called. -/
  use : Use
  /-- The fault in which the call ended, if it did. -/
  fault : Option Fault
deriving DecidableEq, Repr

/-- **Calls of a sink**, of which the last one comes first, and the state in which they leave it. -/
inductive Log (s : File × Volume) : List Call → File × Volume → Prop where
  | start : Log s [] s
  | call {calls : List Call} {t : File × Volume} (u : Use) :
      Log s calls t → Log s (⟨u, (u.perform t).2⟩ :: calls) (u.perform t).1

/-- The sink was opened, and not closed since. -/
def opened : List Call → Bool
  | [] => false
  | ⟨.opening, fault⟩ :: earlier => fault.isNone || opened earlier
  | ⟨.word _, _⟩ :: earlier => opened earlier
  | ⟨.closing, _⟩ :: _ => false

/-- The sink was opened at some time. -/
def everOpened : List Call → Bool
  | [] => false
  | ⟨.opening, fault⟩ :: earlier => fault.isNone || everOpened earlier
  | _ :: earlier => everOpened earlier

/-- The words that were taken. -/
def taken : List Call → List Text
  | [] => []
  | ⟨.word w, none⟩ :: earlier => taken earlier ++ [w]
  | _ :: earlier => taken earlier

/-- The words that were taken since a closed sink was opened for the last time. -/
def takenSince : List Call → List Text
  | [] => []
  | ⟨.opening, none⟩ :: earlier => if opened earlier then takenSince earlier else []
  | ⟨.word w, none⟩ :: earlier => takenSince earlier ++ [w]
  | _ :: earlier => takenSince earlier

/-- The medium refused a word. -/
def Call.refused : Call → Bool
  | ⟨.word _, some (.system _)⟩ => true
  | _ => false

/-- The medium refused no word. -/
def Unfailed (calls : List Call) : Prop := ∀ call ∈ calls, call.refused = false

instance (calls : List Call) : Decidable (Unfailed calls) := inferInstanceAs (Decidable (∀ call ∈ calls, _))

/-- **What a file holds that was opened**, if it held some bytes before. -/
def held (appending : Bool) (before : List UInt8) (calls : List Call) : List UInt8 :=
  if appending then before ++ written (taken calls) else written (takenSince calls)

/-! ## Blocks -/

/-- **A piece of work with a sink**: calls, one after the other and within blocks around which the sink is open. Any
part of it may end in a fault, and any part of it may be shielded, so that the work goes on behind it. -/
inductive Work where
  /-- Nothing is done. -/
  | nothing
  /-- The work ends in a fault. -/
  | fails (fault : Fault)
  /-- The sink is used. -/
  | call (u : Use)
  /-- Something is done, and if it ends well something else. -/
  | andThen (a b : Work)
  /-- Something is done, and its fault is forgotten. -/
  | shielded (a : Work)
  /-- Something is done while the sink is open. -/
  | block (a : Work)

namespace Work

/-- Does the work. -/
def run : Work → Action (File × Volume)
  | nothing, s => (s, none)
  | fails fault, s => (s, some fault)
  | call u, s => u.perform s
  | andThen a b, s =>
    match a.run s with
    | (t, none) => b.run t
    | (t, some fault) => (t, some fault)
  | shielded a, s => ((a.run s).1, none)
  -- what is noted in the journal makes no difference to sink and file
  | block a, s => ((during a.run {} s).1.1, (during a.run {} s).2)

/-- The calls that the work comes to. -/
def calls : Work → File × Volume → List Call
  | nothing, _ | fails _, _ => []
  | call u, s => [⟨u, (u.perform s).2⟩]
  | andThen a b, s =>
    match a.run s with
    | (t, none) => b.calls t ++ a.calls s
    | (_, some _) => a.calls s
  | shielded a, s => a.calls s
  | block a, s =>
    match openFile s with
    | (_, some fault) => [⟨.opening, some fault⟩]
    | (t, none) => ⟨.closing, (close (a.run t).1).2.map .system⟩ :: (a.calls t ++ [⟨.opening, none⟩])

end Work

variable {calls : List Call} {path : Path} {appending : Bool} {v : Volume} {s t t' : File × Volume}

theorem Unfailed.earlier {call : Call} (unfailed : Unfailed (call :: calls)) : Unfailed calls :=
  fun call mem => unfailed call (List.mem_cons_of_mem _ mem)

theorem everOpened_of_opened (is_open : opened calls = true) : everOpened calls = true := by
  induction calls with
  | nil => cases is_open
  | cons call calls ih =>
    obtain ⟨use, fault⟩ := call
    cases use with
    | opening =>
      rw [opened, Bool.or_eq_true] at is_open
      rw [everOpened, Bool.or_eq_true]
      exact is_open.imp_right ih
    | word w => exact ih is_open
    | closing => cases is_open

theorem held_word (before : List UInt8) (w : Text) :
    held appending before (⟨.word w, none⟩ :: calls) =
      held appending before calls ++ Utf8.encode (w ++ ['\n']) := by
  cases appending with
  | false => exact written_append_singleton _ _
  | true =>
    simp only [held, if_true, taken]
    rw [written_append_singleton, List.append_assoc]

/-! ## What one call does -/

theorem write_of_closed (closed : t.1.handle = none) (w : Text) :
    write w t = (t, some (.sinkNotOpen t.1.path.toText)) := by
  obtain ⟨⟨path, appending, handle⟩, v⟩ := t
  obtain rfl : handle = none := closed
  rfl

theorem write_of_open {h : Handle} (is_open : t.1.handle = some h) (w : Text) :
    let wrote := Handle.write (Utf8.encode (w ++ ['\n'])) (h, t.2)
    write w t = (({ t.1 with handle := some wrote.1.1 }, wrote.1.2), wrote.2.map .system) := by
  obtain ⟨⟨path, appending, handle⟩, v⟩ := t
  obtain rfl : handle = some h := is_open
  rfl

theorem close_of_closed (closed : t.1.handle = none) : close t = (t, none) := by
  obtain ⟨⟨path, appending, handle⟩, v⟩ := t
  obtain rfl : handle = none := closed
  rfl

theorem close_of_open {h : Handle} (is_open : t.1.handle = some h) :
    close t = (({ t.1 with handle := none }, (Handle.close (h, t.2)).1), (Handle.close (h, t.2)).2) := by
  obtain ⟨⟨path, appending, handle⟩, v⟩ := t
  obtain rfl : handle = some h := is_open
  rfl

theorem handle_close (t : File × Volume) : (close t).1.1.handle = none := by
  cases is_open : t.1.handle with
  | none => rw [close_of_closed is_open, is_open]
  | some h => rw [close_of_open is_open]

theorem openFile_of_open {h : Handle} (is_open : t.1.handle = some h) : openFile t = (t, none) := by
  obtain ⟨⟨path, appending, handle⟩, v⟩ := t
  obtain rfl : handle = some h := is_open
  rfl

/-- An open sink takes a word, or the medium refuses it. -/
theorem write_fault_of_open {h : Handle} (is_open : t.1.handle = some h) (w : Text) :
    (write w t).2 = none ∨ ∃ refusal, (write w t).2 = some (.system refusal) := by
  rw [write_of_open is_open]
  cases (Handle.write (Utf8.encode (w ++ ['\n'])) (h, t.2)).2 with
  | none => exact .inl rfl
  | some refusal => exact .inr ⟨refusal, rfl⟩

/-- A closed sink is opened, or stays as it is. -/
theorem openFile_of_closed (closed : t.1.handle = none) :
    (∃ fault, t.2.openFile t.1.path t.1.appending = .error fault ∧ openFile t = (t, some fault)) ∨
      ∃ v' h, t.2.openFile t.1.path t.1.appending = .ok (v', h) ∧
        openFile t = (({ t.1 with handle := some h }, v'), none) := by
  obtain ⟨⟨path, appending, handle⟩, v⟩ := t
  obtain rfl : handle = none := closed
  simp only [openFile]
  cases opens : v.openFile path appending with
  | error fault => exact .inl ⟨fault, rfl, rfl⟩
  | ok pair => exact .inr ⟨pair.1, pair.2, rfl, rfl⟩

/-- A closed sink can be opened exactly if its path leads somewhere, and not to a directory. -/
theorem openFile_fault_eq_none_iff (closed : t.1.handle = none) :
    (openFile t).2 = none ↔ ∃ place found, t.2.locate t.1.path = .ok (place, found) ∧ found ≠ some .directory := by
  rw [← Volume.exists_openFile_iff t.2 t.1.path t.1.appending]
  rcases openFile_of_closed closed with ⟨fault, refused, result⟩ | ⟨v', h, opens, result⟩
  · rw [result, refused]
    simp
  · rw [result, opens]
    simp

/-! ## Along a row of calls -/

/-- **How a sink and its file stand** after some calls of a sink that was closed. -/
structure Standing (path : Path) (appending : Bool) (v : Volume) (calls : List Call) (t : File × Volume) :
    Prop where
  /-- The path is the one that the sink was made with. -/
  path_eq : t.1.path = path
  /-- So is the way in which it opens its file. -/
  appending_eq : t.1.appending = appending
  /-- The sink is open exactly after calls that leave it open. -/
  is_open : t.1.handle.isSome = opened calls
  /-- Before the sink was opened nothing happened to the files, and no word was taken. -/
  untouched : everOpened calls = false → t.2 = v ∧ taken calls = []
  /-- If no word was refused by the medium, the path leads to what was written, and nothing is kept back. -/
  holds : everOpened calls = true → Unfailed calls → ∃ place found, v.locate path = .ok (place, found) ∧
    t.2.locate path = .ok (place, some (.written found (held appending (Node.kept found) calls))) ∧
    ∀ h, t.1.handle = some h → h.Behind place (held appending (Node.kept found) calls)

namespace Standing

theorem handle_eq_none (standing : Standing path appending v calls t) (closed : opened calls = false) :
    t.1.handle = none := by
  rw [← Option.not_isSome_iff_eq_none, standing.is_open, closed]
  exact Bool.false_ne_true

theorem exists_handle (standing : Standing path appending v calls t) (is_open : opened calls = true) :
    ∃ h, t.1.handle = some h := by
  rw [← Option.isSome_iff_exists, standing.is_open, is_open]

theorem opened_of_handle {h : Handle} (standing : Standing path appending v calls t) (handle : t.1.handle = some h) :
    opened calls = true := by
  rw [← standing.is_open, handle]
  rfl

theorem start (path : Path) (appending : Bool) (v : Volume) :
    Standing path appending v [] (⟨path, appending, none⟩, v) :=
  ⟨rfl, rfl, rfl, fun _ => ⟨rfl, rfl⟩, nofun⟩

/-- Opening an open sink changes nothing. -/
theorem opening_open (standing : Standing path appending v calls t) (is_open : opened calls = true) :
    Standing path appending v (⟨.opening, none⟩ :: calls) t := by
  have ever := everOpened_of_opened is_open
  have same (before : List UInt8) :
      held appending before (⟨.opening, none⟩ :: calls) = held appending before calls := by
    simp only [held, taken, takenSince, is_open, if_true]
  refine ⟨standing.path_eq, standing.appending_eq, standing.is_open.trans is_open, nofun, fun _ unfailed => ?_⟩
  simp only [same]
  exact standing.holds ever unfailed.earlier

/-- A closed sink that cannot be opened stays as it is. -/
theorem opening_refused (standing : Standing path appending v calls t) (fault : Fault) :
    Standing path appending v (⟨.opening, some fault⟩ :: calls) t :=
  ⟨standing.path_eq, standing.appending_eq, standing.is_open, standing.untouched,
    fun ever unfailed => standing.holds ever unfailed.earlier⟩

/-- A closed sink that is opened goes on with what the file holds, or begins anew. -/
theorem opening_closed {v' : Volume} {h : Handle} (standing : Standing path appending v calls t)
    (closed : opened calls = false) (opens : t.2.openFile t.1.path t.1.appending = .ok (v', h)) :
    Standing path appending v (⟨.opening, none⟩ :: calls) ({ t.1 with handle := some h }, v') := by
  rw [standing.path_eq, standing.appending_eq] at opens
  refine ⟨standing.path_eq, standing.appending_eq, rfl, nofun, fun _ unfailed => ?_⟩
  obtain ⟨place, found', leads', rfl, now, -⟩ := Volume.openFile_keeps opens
  -- what the sink finds at the path is what it wrote there before, if it was ever open
  obtain ⟨found, leads, keeps⟩ : ∃ found, v.locate path = .ok (place, found) ∧
      Node.written found' (if appending then Node.kept found' else []) =
        .written found (held appending (Node.kept found) (⟨.opening, none⟩ :: calls)) := by
    cases ever : everOpened calls with
    | false =>
      obtain ⟨same, none_taken⟩ := standing.untouched ever
      rw [same] at leads'
      refine ⟨found', leads', ?_⟩
      simp only [held, taken, takenSince, none_taken, closed, Bool.false_eq_true, if_false]
      cases appending with
      | false => rfl
      | true => exact congrArg (Node.written found') (List.append_nil _).symm
    | true =>
      obtain ⟨place', found, leads, now', -⟩ := standing.holds ever unfailed.earlier
      obtain ⟨rfl, rfl⟩ : place' = place ∧ some (Node.written found _) = found' := by
        simpa using now'.symm.trans leads'
      refine ⟨found, leads, ?_⟩
      simp only [held, takenSince, taken, closed, Bool.false_eq_true, if_false, Node.written_written]
      cases appending with
      | false => rfl
      | true => exact Node.written_kept_written _ _
  rw [keeps] at now
  refine ⟨place, found, leads, now, ?_⟩
  rintro h ⟨rfl⟩
  refine ⟨rfl, ?_, rfl⟩
  cases appending with
  | true => exact .inl rfl
  | false =>
    refine .inr ?_
    simp only [held, takenSince, closed, Bool.false_eq_true, if_false]
    rfl

/-- A closed sink takes no word. -/
theorem word_closed (standing : Standing path appending v calls t) (w : Text) (fault : Fault) :
    Standing path appending v (⟨.word w, some fault⟩ :: calls) t :=
  ⟨standing.path_eq, standing.appending_eq, standing.is_open, standing.untouched,
    fun ever unfailed => standing.holds ever unfailed.earlier⟩

/-- **What an open sink makes of a word** is decided by the medium, if it refused none before. -/
theorem word_decided {h : Handle} (standing : Standing path appending v calls t) (handle : t.1.handle = some h)
    (unfailed : Unfailed calls) (w : Text) :
    ∃ place found, v.locate path = .ok (place, found) ∧
      let wrote := Handle.write (Utf8.encode (w ++ ['\n'])) (h, t.2)
      wrote.2 = (Medium.under found).onWrite t.2.attempts ∧
        (wrote.2 = none →
          wrote.1.2.locate path =
              .ok (place, some (.written found (held appending (Node.kept found) (⟨.word w, none⟩ :: calls)))) ∧
            wrote.1.1.Behind place (held appending (Node.kept found) (⟨.word w, none⟩ :: calls))) := by
  have ever := everOpened_of_opened (standing.opened_of_handle handle)
  obtain ⟨place, found, leads, now, behind⟩ := standing.holds ever unfailed
  obtain ⟨answer, accepted⟩ := (behind h handle).write (encode_line_ne_nil w) now
  refine ⟨place, found, leads, answer, fun none_refused => ?_⟩
  obtain ⟨v', wrote, further, -⟩ := accepted (answer.symm.trans none_refused)
  rw [wrote, held_word]
  exact ⟨further, (behind h handle).moved _⟩

/-- An open sink takes a word, or the medium refuses it. -/
theorem word_open {h : Handle} (standing : Standing path appending v calls t) (handle : t.1.handle = some h)
    (w : Text) : Standing path appending v (⟨.word w, (write w t).2⟩ :: calls) (write w t).1 := by
  have is_open := standing.opened_of_handle handle
  have ever := everOpened_of_opened is_open
  refine ⟨?_, ?_, ?_, fun never => ?_, fun _ unfailed => ?_⟩
  · rw [write_of_open handle]
    exact standing.path_eq
  · rw [write_of_open handle]
    exact standing.appending_eq
  · rw [write_of_open handle]
    exact is_open.symm
  · exact absurd (never.symm.trans ever) Bool.false_ne_true
  · obtain ⟨place, found, leads, -, accepted⟩ := standing.word_decided handle unfailed.earlier w
    rw [write_of_open handle] at unfailed ⊢
    cases answer : (Handle.write (Utf8.encode (w ++ ['\n'])) (h, t.2)).2 with
    | some refusal =>
      -- such a row has failed
      rw [answer] at unfailed
      cases unfailed _ List.mem_cons_self
    | none =>
      obtain ⟨now, behind⟩ := accepted answer
      refine ⟨place, found, leads, now, ?_⟩
      rintro h' ⟨rfl⟩
      exact behind

/-- Closing closes, and the contents stay as they are. -/
theorem closing (standing : Standing path appending v calls t) :
    Standing path appending v (⟨.closing, (close t).2.map .system⟩ :: calls) (close t).1 := by
  cases handle : t.1.handle with
  | none =>
    rw [close_of_closed handle]
    refine ⟨standing.path_eq, standing.appending_eq, ?_, standing.untouched, fun ever unfailed => ?_⟩
    · rw [handle]
      rfl
    · exact standing.holds ever unfailed.earlier
  | some h =>
    have ever := everOpened_of_opened (standing.opened_of_handle handle)
    rw [close_of_open handle]
    refine ⟨standing.path_eq, standing.appending_eq, rfl, fun never => ?_, fun _ unfailed => ?_⟩
    · exact absurd (never.symm.trans ever) Bool.false_ne_true
    · obtain ⟨place, found, leads, now, behind⟩ := standing.holds ever unfailed.earlier
      rw [(behind h handle).close now]
      exact ⟨place, found, leads, (Volume.locate_tried _ _).trans now, nofun⟩

/-- **One call more.** -/
theorem step (standing : Standing path appending v calls t) (u : Use) :
    Standing path appending v (⟨u, (u.perform t).2⟩ :: calls) (u.perform t).1 := by
  cases u with
  | opening =>
    simp only [Use.perform]
    cases is_open : opened calls with
    | true =>
      obtain ⟨h, handle⟩ := standing.exists_handle is_open
      rw [openFile_of_open handle]
      exact standing.opening_open is_open
    | false =>
      rcases openFile_of_closed (standing.handle_eq_none is_open) with
        ⟨fault, -, refused⟩ | ⟨v', h, opens, result⟩
      · rw [refused]
        exact standing.opening_refused fault
      · rw [result]
        exact standing.opening_closed is_open opens
  | word w =>
    simp only [Use.perform]
    cases handle : t.1.handle with
    | none =>
      rw [write_of_closed handle]
      exact standing.word_closed w _
    | some h => exact standing.word_open handle w
  | closing => exact standing.closing

theorem of_log (log : Log (⟨path, appending, none⟩, v) calls t) : Standing path appending v calls t := by
  induction log with
  | start => exact start path appending v
  | call u _ ih => exact ih.step u

end Standing

/-! ## Along a piece of work -/

theorem Log.trans {calls' : List Call} (log : Log s calls t) (further : Log t calls' t') :
    Log s (calls' ++ calls) t' := by
  induction further with
  | start => exact log
  | call u _ ih => exact ih.call u

theorem left_fault (f : File) (journal : Journal) (work : Option Fault) (closing : Option SystemFault) :
    (f.left journal work closing).2 = work.or (closing.map .system) := by
  cases work with
  | none => rfl
  | some fault => cases closing <;> rfl

/-- **A block** opens the sink, and closes it however the work ended. The fault that remains is that of the work, or
else that of closing. -/
theorem during_of_opened (work : Action (File × Volume)) (journal : Journal) (opens : openFile s = (t, none)) :
    (during work journal s).1.1 = (close (work t).1).1 ∧
      (during work journal s).2 = (work t).2.or ((close (work t).1).2.map .system) := by
  unfold during
  rw [opens]
  exact ⟨rfl, left_fault _ _ _ _⟩

/-- If the sink cannot be opened, the work is not done. -/
theorem during_of_refused (work : Action (File × Volume)) (journal : Journal) {fault : Fault}
    (refused : openFile s = (t, some fault)) : during work journal s = ((t, journal), some fault) := by
  unfold during
  rw [refused]

theorem handle_of_refused {fault : Fault} (refused : openFile s = (t, some fault)) : t.1.handle = none := by
  cases handle : s.1.handle with
  | some h => cases (openFile_of_open handle).symm.trans refused
  | none =>
    rcases openFile_of_closed handle with ⟨fault', -, same⟩ | ⟨v', h, -, opens⟩
    · cases same.symm.trans refused
      exact handle
    · cases opens.symm.trans refused

/-- **After a block the sink is closed**, whatever was refused. A fault of the work is the one that remains. -/
theorem during_spec (work : Action (File × Volume)) (journal : Journal) (s : File × Volume) :
    (during work journal s).1.1.1.handle = none ∧
      (during work journal s).2 = (openFile s).2.or
        ((work (openFile s).1).2.or ((close (work (openFile s).1).1).2.map .system)) := by
  cases opens : openFile s with
  | mk t fault =>
    cases fault with
    | some fault =>
      rw [during_of_refused work journal opens]
      exact ⟨handle_of_refused opens, rfl⟩
    | none =>
      obtain ⟨closed, remains⟩ := during_of_opened work journal opens
      rw [closed, remains]
      exact ⟨handle_close _, rfl⟩

/-- **All that a piece of work does to a sink is a row of calls.** -/
theorem Work.log (work : Work) (s : File × Volume) : Log s (work.calls s) (work.run s).1 := by
  induction work generalizing s with
  | nothing | fails fault => exact .start
  | call u => exact .call u .start
  | andThen a b iha ihb =>
    have first := iha s
    simp only [calls, run]
    cases ran : a.run s with
    | mk t fault =>
      rw [ran] at first
      cases fault with
      | some fault => exact first
      | none => exact first.trans (ihb t)
  | shielded a ih => exact ih s
  | block a ih =>
    -- one call before the block, and if that one ends well one behind it
    simp only [calls, run]
    cases opens : openFile s with
    | mk t fault =>
      have opening : Log s [⟨.opening, fault⟩] t := by
        have := Log.call .opening (.start : Log s [] s)
        simp only [Use.perform, opens] at this
        exact this
      cases fault with
      | some fault =>
        rw [during_of_refused a.run {} opens]
        exact opening
      | none =>
        rw [(during_of_opened a.run {} opens).1]
        exact (opening.trans (ih t)).call .closing

/-! ## The life cycle -/

/-- **The life of a file sink.** After any row of calls of a sink that was closed when it was made:

* a word is taken while the sink is open, unless the medium refuses it, and otherwise the sink says that it is not open,
  and nothing changes;
* opening an open sink changes nothing, and neither does closing a closed one; a closed sink can be opened if its path
  leads somewhere, and not to a directory;
* if the medium refused no word, the file holds what it is to hold, that is what it held at first if the sink was never
  opened.

Any piece of work comes to such a row, however its blocks are left. And after a block the sink is closed, whatever the
medium refused, and the fault that remains is that of the work if there is one. -/
theorem file_holds_words_taken_while_open (path : Path) (appending : Bool) (v : Volume) :
    let fresh : File × Volume := (⟨path, appending, none⟩, v)
    (∀ calls t, Log fresh calls t →
      (∀ w, opened calls = false → write w t = (t, some (.sinkNotOpen path.toText))) ∧
      (∀ w, opened calls = true → (write w t).2 = none ∨ ∃ refusal, (write w t).2 = some (.system refusal)) ∧
      (∀ w, opened calls = true → Unfailed calls → ∃ place found, v.locate path = .ok (place, found) ∧
        (write w t).2 = ((Medium.under found).onWrite t.2.attempts).map .system) ∧
      (opened calls = true → openFile t = (t, none)) ∧
      (opened calls = false → ((openFile t).2 = none ↔
        ∃ place found, t.2.locate path = .ok (place, found) ∧ found ≠ some .directory)) ∧
      (opened calls = false → close t = (t, none)) ∧
      (Unfailed calls → (∀ place medium, v.locate path ≠ .ok (place, some (.device medium))) →
        t.2.contents? path =
          if everOpened calls then some (held appending ((v.contents? path).getD []) calls) else v.contents? path)) ∧
    (∀ work : Work, Log fresh (work.calls fresh) (work.run fresh).1) ∧
    ∀ (work : Action (File × Volume)) journal t,
      (during work journal t).1.1.1.handle = none ∧
        (during work journal t).2 = (openFile t).2.or
          ((work (openFile t).1).2.or ((close (work (openFile t).1).1).2.map .system)) := by
  intro fresh
  refine ⟨fun calls t log => ?_, fun work => work.log fresh, fun work journal t => during_spec work journal t⟩
  have standing := Standing.of_log log
  refine ⟨fun w closed => ?_, fun w is_open => ?_, fun w is_open unfailed => ?_, fun is_open => ?_, fun closed => ?_,
    fun closed => ?_, fun unfailed no_device => ?_⟩
  · rw [write_of_closed (standing.handle_eq_none closed), standing.path_eq]
  · obtain ⟨h, handle⟩ := standing.exists_handle is_open
    exact write_fault_of_open handle w
  · obtain ⟨h, handle⟩ := standing.exists_handle is_open
    obtain ⟨place, found, leads, answer, -⟩ := standing.word_decided handle unfailed w
    refine ⟨place, found, leads, ?_⟩
    rw [write_of_open handle, ← answer]
  · obtain ⟨h, handle⟩ := standing.exists_handle is_open
    exact openFile_of_open handle
  · rw [openFile_fault_eq_none_iff (standing.handle_eq_none closed), standing.path_eq]
  · exact close_of_closed (standing.handle_eq_none closed)
  · cases ever : everOpened calls with
    | false =>
      rw [(standing.untouched ever).1]
      rfl
    | true =>
      obtain ⟨place, found, leads, now, -⟩ := standing.holds ever unfailed
      have no_device_found (medium : Medium) : found ≠ some (.device medium) := by
        rintro rfl
        exact no_device place medium leads
      rw [if_pos rfl, Volume.contents?_getD_eq_kept leads]
      exact Volume.contents?_of_locate now no_device_found

/-- Two blocks, of which the first is left by a fault. -/
def twoBlocks : Work :=
  .andThen (.shielded (.block (.andThen (.call (.word ['a'])) (.fails (.refused "stop")))))
    (.block (.call (.word ['b'])))

/-- What was in the file stays there if words are added at its end, and else only the word of the last block does. -/
theorem file_holds_words_taken_while_open_two_blocks :
    let path : Path := ⟨0, [['w']]⟩
    let v : Volume := Volume.fresh.makeFile (Volume.home ++ [['w']]) (Utf8.encode "old\n".toList)
    let after (appending : Bool) : Volume := (twoBlocks.run (⟨path, appending, none⟩, v)).1.2
    (after true).contents? path = some (Utf8.encode "old\na\nb\n".toList) ∧
      (after false).contents? path = some (Utf8.encode "b\n".toList) := by
  intro path v after
  have no_device : ∀ place medium, v.locate path ≠ .ok (place, some (.device medium)) := by
    intro place medium device
    have is_file : (v.contents? path).isSome = true := by decide +kernel
    simp [Volume.contents?, device] at is_file
  constructor
  · obtain ⟨rows, works, -⟩ := file_holds_words_taken_while_open path true v
    obtain ⟨-, -, -, -, -, -, holds⟩ := rows _ _ (works twoBlocks)
    exact (holds (by decide +kernel) no_device).trans (by decide +kernel)
  · obtain ⟨rows, works, -⟩ := file_holds_words_taken_while_open path false v
    obtain ⟨-, -, -, -, -, -, holds⟩ := rows _ _ (works twoBlocks)
    exact (holds (by decide +kernel) no_device).trans (by decide +kernel)

end SemiThue.Sink.File
