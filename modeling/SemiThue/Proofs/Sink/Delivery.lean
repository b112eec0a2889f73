/-
What the sinks of a call make of the words that they are told.

The row of sinks begins with the counter and ends with the file sink, which is open; what stands between them
takes every word. So the answer to a word is the answer of the file, a refusal by the system or none
(`InRow.tee`). And as nothing else touches the file, it can be followed along the log alone: as long as no
word was refused, the file holds the words told so far, one a line, and the attempts at it were one for each
word (`Delivery`).

A word goes to the sinks in one move. In between other words may go to other sinks, but these neither touch
the file nor answer, so the move may be thought of as the moment at which the word goes to the file.
-/
import SemiThue.Proofs.Files.Writing
import SemiThue.Proofs.Replay
import SemiThue.Proofs.Text.Lines
import SemiThue.Proofs.Text.Utf8
import SemiThue.Sink.Outlets

set_option autoImplicit false

namespace SemiThue.Sink

open SemiThue.Exploration SemiThue.Files

/-! ## Sinks that take every word -/

namespace Outlet

/-- The sink writes to no file. -/
def Harmless (s : Outlet) : Prop := ∀ f, s ≠ .file f

/-- A sink that has heard a word. What a file sink does with it is said elsewhere. -/
def hear (word : Text) : Outlet → Outlet
  | .counter count => .counter (count + 1)
  | .collector words => .collector (word :: words)
  | .console c => .console (c.write word)
  | .file f => .file f

theorem send_of_harmless {s : Outlet} (harmless : s.Harmless) (word : Text) (v : Volume) :
    send word (s, v) = ((s.hear word, v), none) := by
  cases s with
  | file f => exact absurd rfl (harmless f)
  | _ => rfl

theorem Harmless.hear {s : Outlet} (harmless : s.Harmless) (word : Text) : (s.hear word).Harmless := by
  cases s with
  | file f => exact absurd rfl (harmless f)
  | _ => nofun

/-- What keeps a sink from taking a word is a failure. -/
theorem isFailure_of_send {word : Text} {s : Outlet × Volume} {fault : Fault}
    (refused : (send word s).2 = some fault) : fault.isFailure = true := by
  obtain ⟨sink, v⟩ := s
  cases sink with
  | file f =>
    change (File.write word (f, v)).2 = some fault at refused
    simp only [File.write] at refused
    split at refused
    · cases refused
      rfl
    · obtain ⟨refusal, -, rfl⟩ := Option.map_eq_some_iff.1 refused
      rfl
  | _ => cases refused

end Outlet

namespace Outlets

/-- What an action on a sink ends in, it ends in at that sink. -/
theorem exists_of_onSink {i : Nat} {action : Action (Outlet × Volume)} {o : Outlets} {fault : Fault}
    (ended : (onSink i action o).2 = some fault) : ∃ s, (action s).2 = some fault := by
  unfold onSink at ended
  split at ended
  · cases ended
  · exact ⟨_, ended⟩

/-- What is done to a sink in a row leaves the others as they are. -/
theorem onSink_append (before : List Outlet) (s : Outlet) (behind : List Outlet) (v : Volume)
    (action : Action (Outlet × Volume)) :
    onSink before.length action ⟨before ++ s :: behind, v⟩ =
      (⟨before ++ (action (s, v)).1.1 :: behind, (action (s, v)).1.2⟩, (action (s, v)).2) := by
  unfold onSink
  simp only
  rw [List.getElem?_append_right (Nat.le_refl _), Nat.sub_self, List.getElem?_cons_zero]
  simp only [List.set_append_right _ _ (Nat.le_refl before.length), Nat.sub_self, List.set_cons_zero]

/-- **Sinks take a word or fail.** They never ask to leave. -/
theorem isFailure_of_tee {places : List Nat} {word : Text} {o : Outlets} {fault : Fault}
    (refused : (tee places word o).2 = some fault) : fault.isFailure = true := by
  obtain ⟨i, o', refused⟩ := Action.exists_of_each refused
  obtain ⟨s, refused⟩ := exists_of_onSink refused
  exact Outlet.isFailure_of_send refused

theorem tee_cons_of_none {i : Nat} {word : Text} {o o' : Outlets}
    (taken : onSink i (Outlet.send word) o = (o', none)) (places : List Nat) :
    tee (i :: places) word o = tee places word o' := Action.each_cons_of_none taken

/-- One more sink hears a word that the others took. -/
theorem tee_append_singleton {places : List Nat} {word : Text} {o o' : Outlets}
    (taken : tee places word o = (o', none)) (i : Nat) :
    tee (places ++ [i]) word o = onSink i (Outlet.send word) o' := by
  rw [tee, Action.each_append, ← tee, taken]
  simp only [Action.each]
  cases onSink i (Outlet.send word) o' with
  | mk o'' fault => cases fault <;> rfl

/-- **Sinks that write to no file take every word.** -/
theorem tee_of_harmless {front : List Outlet} (harmless : ∀ s ∈ front, s.Harmless)
    (before behind : List Outlet) (v : Volume) (word : Text) :
    tee (List.range' before.length front.length) word ⟨before ++ (front ++ behind), v⟩ =
      (⟨before ++ (front.map (Outlet.hear word) ++ behind), v⟩, none) := by
  induction front generalizing before with
  | nil => rfl
  | cons s front ih =>
    have takes := Outlet.send_of_harmless (harmless s List.mem_cons_self) word v
    have others := ih (fun s mem => harmless s (List.mem_cons_of_mem _ mem)) (before ++ [s.hear word])
    simp only [List.append_assoc, List.singleton_append, List.length_append, List.length_singleton] at others
    have first : onSink before.length (Outlet.send word) ⟨before ++ s :: (front ++ behind), v⟩ =
        (⟨before ++ s.hear word :: (front ++ behind), v⟩, none) := by
      rw [onSink_append, takes]
    rw [List.length_cons, List.range'_succ, List.cons_append, tee_cons_of_none first]
    exact others

/-! ## The row of sinks -/

/-- **The row of sinks**: a counter that stands at some number, some sinks that write to no file, and the
file sink, which is open. -/
def InRow (path : Path) (between count : Nat) (h : Handle) (o : Outlets) : Prop :=
  ∃ others : List Outlet, others.length = between ∧ (∀ s ∈ others, s.Harmless) ∧
    o.sinks = .counter count :: others ++ [.file ⟨path, false, some h⟩]

namespace InRow

variable {path : Path} {between count : Nat} {h : Handle} {o : Outlets}

/-- **Telling a word** counts it, and the answer is that of the file. -/
theorem tee (row : o.InRow path between count h) (word : Text) :
    let wrote := Handle.write (Utf8.encode (word ++ ['\n'])) (h, o.volume)
    let told := o.tee (List.range (between + 2)) word
    told.1.InRow path between (count + 1) wrote.1.1 ∧ told.1.volume = wrote.1.2 ∧
      told.2 = wrote.2.map .system := by
  intro wrote told
  obtain ⟨sinks, v⟩ := o
  obtain ⟨others, rfl, harmless, rfl⟩ := row
  have in_front : ∀ s ∈ Outlet.counter count :: others, s.Harmless := by
    intro s mem
    rcases List.mem_cons.1 mem with rfl | mem
    · nofun
    · exact harmless s mem
  let front := (Outlet.counter count :: others).map (Outlet.hear word)
  have length : others.length + 1 = front.length := by rw [List.length_map, List.length_cons]
  have heard : Outlets.tee (List.range (others.length + 1)) word
      ⟨Outlet.counter count :: others ++ [.file ⟨path, false, some h⟩], v⟩ =
        (⟨front ++ [.file ⟨path, false, some h⟩], v⟩, none) := by
    rw [List.range_eq_range']
    exact tee_of_harmless in_front [] _ v word
  have told_eq : told = (⟨front ++ [.file ⟨path, false, some wrote.1.1⟩], wrote.1.2⟩,
      wrote.2.map .system) := by
    simp only [told]
    rw [List.range_succ, tee_append_singleton heard, length, onSink_append]
    rfl
  rw [told_eq]
  refine ⟨⟨others.map (Outlet.hear word), List.length_map _, fun s mem => ?_, rfl⟩, rfl, rfl⟩
  obtain ⟨s', mem', rfl⟩ := List.mem_map.1 mem
  exact (harmless s' mem').hear word

/-- The counter shows how many words it was told. -/
theorem count_eq (row : o.InRow path between count h) : o.count = count := by
  obtain ⟨others, -, -, sinks⟩ := row
  unfold Outlets.count
  rw [sinks]
  rfl

theorem getElem?_eq (row : o.InRow path between count h) :
    o.sinks[between + 1]? = some (.file ⟨path, false, some h⟩) := by
  obtain ⟨others, rfl, -, sinks⟩ := row
  rw [sinks]
  exact List.getElem?_concat_length

/-- **Leaving the work around which the file was open** closes it. The fault that remains is that of the
work, or else that of closing. -/
theorem leave (row : o.InRow path between count h) (work : Option Fault) (journal : Journal) :
    let closed := Handle.close (h, o.volume)
    let left := o.leave (between + 1) work journal
    left.1.1.volume = closed.1 ∧ left.1.1.count = count ∧ left.2 = work.or (closed.2.map .system) := by
  intro closed left
  have count_left : left.1.1.count = count := by
    obtain ⟨others, rfl, -, sinks⟩ := id row
    simp only [left, Outlets.leave, row.getElem?_eq]
    rw [sinks]
    rfl
  refine ⟨?_, count_left, ?_⟩ <;> simp only [left, Outlets.leave, row.getElem?_eq, File.leave, File.close]
  · rfl
  · simp only [closed]
    cases work with
    | none => rfl
    | some fault => cases (Handle.close (h, o.volume)).2 <;> rfl

end InRow

/-- The refusal that closing the file sink in a given place meets. -/
def closing (o : Outlets) (place : Nat) : Option SystemFault :=
  match o.sinks[place]? with
  | some (.file f) => (File.close (f, o.volume)).2
  | _ => none

theorem InRow.closing_eq {path : Path} {between count : Nat} {h : Handle} {o : Outlets}
    (row : o.InRow path between count h) :
    o.closing (between + 1) = (Handle.close (h, o.volume)).2 := by
  unfold closing
  rw [row.getElem?_eq]
  rfl

end Outlets

/-! ## Following the file along a log -/

/-- The words of a log, in the order in which they were told. -/
def wordsOf (calls : List Call) : List Text := (calls.map Call.word).reverse

theorem wordsOf_cons (call : Call) (calls : List Call) :
    wordsOf (call :: calls) = wordsOf calls ++ [call.word] := by simp [wordsOf]

@[simp] theorem length_wordsOf (calls : List Call) : (wordsOf calls).length = calls.length := by simp [wordsOf]

/-- What is written of some words. -/
def written (words : List Text) : List UInt8 := Utf8.encode (Text.listing words)

theorem written_append_singleton (words : List Text) (word : Text) :
    written (words ++ [word]) = written words ++ Utf8.encode (word ++ ['\n']) := by
  rw [written, Text.listing_append_singleton, Utf8.encode_append]
  rfl

theorem encode_line_ne_nil (word : Text) : Utf8.encode (word ++ ['\n']) ≠ [] := by
  rw [Utf8.encode_append]
  exact List.append_ne_nil_of_right_ne_nil _ (by decide)

/-- All sinks of the row are told a word in turn. -/
def telling (between : Nat) : Listener Outlets := fun _ word => Outlets.tee (List.range (between + 2)) word

/-- **What a row of sinks has delivered** along a log. The path led to a certain place, and something was
found there; so many attempts had been made before. -/
structure Delivery (path : Path) (place : Place) (found : Option Node) (between attempts : Nat)
    (calls : List Call) (o : Outlets) : Prop where
  /-- Every word was counted, and if none was refused, nothing is kept back. -/
  row : ∃ h, o.InRow path between calls.length h ∧ ((∀ call ∈ calls, call.fault = none) →
    h = ⟨place, (written (wordsOf calls)).length, false, []⟩)
  /-- Whatever was refused, the system refused it. -/
  refusal : ∀ call ∈ calls, ∀ fault, call.fault = some fault → ∃ refusal, fault = .system refusal
  /-- No word was refused exactly if the medium took an attempt for each. -/
  answered_iff : (∀ call ∈ calls, call.fault = none) ↔
    ∀ n < calls.length, (Medium.under found).onWrite (attempts + n) = none
  /-- If none was refused, the words were written one a line. -/
  leads : (∀ call ∈ calls, call.fault = none) →
    o.volume.locate path = .ok (place, some (.written found (written (wordsOf calls))))
  /-- If none was refused, one attempt was made for each. -/
  attempts : (∀ call ∈ calls, call.fault = none) → o.volume.attempts = attempts + calls.length

namespace Delivery

variable {path : Path} {place : Place} {found : Option Node} {between attempts : Nat}
  {calls : List Call} {o : Outlets}

/-- **One word more.** -/
theorem tell (h : Delivery path place found between attempts calls o) (n : Outstanding) (word : Text) :
    Delivery path place found between attempts
      (⟨word, n, (telling between n word o).2⟩ :: calls) (telling between n word o).1 := by
  obtain ⟨handle, row, holds⟩ := h.row
  obtain ⟨row', volume, answer⟩ := row.tee word
  change (telling between n word o).1.volume = _ at volume
  change (telling between n word o).2 = _ at answer
  -- if the words before were taken, the medium decides about this one
  have decided (answered : ∀ call ∈ calls, call.fault = none) := by
    have wrote := Handle.write_spec (encode_line_ne_nil word) (h.leads answered)
    rw [← holds answered, h.attempts answered] at wrote
    exact wrote
  have taken_iff (answered : ∀ call ∈ calls, call.fault = none) :
      (telling between n word o).2 = none ↔
        (Medium.under found).onWrite (attempts + calls.length) = none := by
    rw [answer, Option.map_eq_none_iff, (decided answered).1]
  have taken (all : ∀ call ∈ ⟨word, n, (telling between n word o).2⟩ :: calls, call.fault = none) :
      ∃ v', Handle.write (Utf8.encode (word ++ ['\n'])) (handle, o.volume) =
          ((⟨place, (written (wordsOf calls ++ [word])).length, false, []⟩, v'), none) ∧
        v'.locate path = .ok (place, some (.written found (written (wordsOf calls ++ [word])))) ∧
        v'.attempts = attempts + calls.length + 1 := by
    obtain ⟨this, answered⟩ := List.forall_mem_cons.1 all
    rw [written_append_singleton]
    exact (decided answered).2 ((taken_iff answered).1 this)
  refine ⟨⟨_, row', fun all => ?_⟩, fun call mem fault refused => ?_, ?_, fun all => ?_, fun all => ?_⟩
  · obtain ⟨v', wrote, -⟩ := taken all
    rw [wrote, wordsOf_cons]
  · rcases List.mem_cons.1 mem with rfl | mem
    · rw [answer] at refused
      obtain ⟨refusal, -, rfl⟩ := Option.map_eq_some_iff.1 refused
      exact ⟨refusal, rfl⟩
    · exact h.refusal call mem fault refused
  · rw [List.forall_mem_cons, List.length_cons]
    constructor
    · rintro ⟨this, answered⟩ k within
      rcases Nat.lt_succ_iff_lt_or_eq.1 within with before | rfl
      · exact h.answered_iff.1 answered k before
      · exact (taken_iff answered).1 this
    · intro accepted
      have answered := h.answered_iff.2 fun k before => accepted k (Nat.lt_succ_of_lt before)
      exact ⟨(taken_iff answered).2 (accepted _ (Nat.lt_succ_self _)), answered⟩
  · obtain ⟨v', wrote, leads, -⟩ := taken all
    rw [volume, wrote, wordsOf_cons]
    exact leads
  · obtain ⟨v', wrote, -, more⟩ := taken all
    rw [volume, wrote, List.length_cons]
    exact more

/-- **Along a log** that begins when the file has been opened. -/
theorem of_log {now : Outlets} (row : o.InRow path between 0 ⟨place, 0, false, []⟩)
    (leads : o.volume.locate path = .ok (place, some (.written found [])))
    (log : (telling between).Log o calls now) :
    Delivery path place found between o.volume.attempts calls now := by
  induction log with
  | start => exact ⟨⟨_, row, fun _ => rfl⟩, nofun, by simp, fun _ => leads, fun _ => rfl⟩
  | call _ n word ih => exact ih.tell n word

end Delivery

end SemiThue.Sink
