/-
Words and a status line on one terminal.

The console sink and the line at the bottom take turns on the same terminal. The sink asks for the status at each
word, fills the word up with blanks to its length, and draws the status again below. The line draws a new status over
the old one, and blanks nothing.

So what a line of the terminal shows is what was drawn on it, one text over the other. A word, or a status, stands
alone on its line exactly if it reaches as far as every status that was drawn there before, a word being as long as
the status in force at least. This goes wrong when the status gets shorter, as it does when fewer units are in flight
than before.
-/
import SemiThue.Proofs.Terminal.Screen

set_option autoImplicit false

namespace SemiThue.Terminal

/-- What happens on a terminal with a status line. -/
inductive Happening where
  /-- A word is told to the console sink. -/
  | word (w : Text)
  /-- The status line is drawn anew. -/
  | redraw (t : Text)
deriving DecidableEq, Repr

namespace Happening

/-- What is shown takes a cell for every character. -/
def Plain : Happening → Prop
  | .word t | .redraw t => Terminal.Plain t

instance : (e : Happening) → Decidable e.Plain
  | .word t | .redraw t => inferInstanceAs (Decidable (Terminal.Plain t))

/-- A status that is drawn does not end in a blank. -/
def Edged : Happening → Prop
  | .word _ => True
  | .redraw t => t.getLast? ≠ some ' '

instance : (e : Happening) → Decidable e.Edged
  | .word _ => inferInstanceAs (Decidable True)
  | .redraw _ => inferInstanceAs (Decidable (_ ≠ _))

end Happening

/-- **A word is shown above the line.** The console sink has the text of the line as its status, draws it in the same
style, and writes to the same terminal. -/
def Progress.showWord (p : Progress) (w : Text) : Progress :=
  let console : Sink.Console := { statuses := some [p.text], style := p.style, written := p.written }
  { p with written := (console.write w).written }

/-- The line after some happenings, of which the last one comes first. It is drawn without a style. -/
def Progress.after : List Happening → Progress
  | [] => {}
  | .word w :: earlier => (after earlier).showWord w
  | .redraw t :: earlier => (after earlier).draw t

/-! ## The status, and what is drawn -/

/-- The status in force. -/
def status (h : List Happening) : Text := (Progress.after h).text

/-- What the terminal shows. -/
def screen (h : List Happening) : Screen := Screen.display {} (Progress.after h).written.toText

/-- The words that were told, the newest first. -/
def words (h : List Happening) : List Text :=
  h.filterMap fun
    | .word w => some w
    | .redraw _ => none

/-- The texts that were drawn on the line under way, the newest first: the status below the last word, and what the
status line drew since. -/
def drawn : List Happening → List Text
  | [] => []
  | .word _ :: earlier => [status earlier]
  | .redraw t :: earlier => t :: drawn earlier

/-- No text that was drawn on the line under way is longer. -/
def Covers (n : Nat) (h : List Happening) : Prop := ∀ t ∈ drawn h, t.length ≤ n

instance (n : Nat) (h : List Happening) : Decidable (Covers n h) := inferInstanceAs (Decidable (∀ t ∈ drawn h, _))

variable {h earlier : List Happening} {w t : Text} {n : Nat}

theorem style_after (h : List Happening) : (Progress.after h).style = {} := by
  induction h with
  | nil => rfl
  | cons e h ih =>
    cases e with
    | word w => exact ih
    | redraw t => exact ih

theorem status_mem_redraws (h : List Happening) : status h = [] ∨ .redraw (status h) ∈ h := by
  induction h with
  | nil => exact .inl rfl
  | cons e h ih =>
    cases e with
    | word w => exact ih.imp_right (List.mem_cons_of_mem _)
    | redraw t => exact .inr List.mem_cons_self

theorem drawn_mem_redraws (mem : t ∈ drawn h) : t = [] ∨ .redraw t ∈ h := by
  induction h with
  | nil => cases mem
  | cons e h ih =>
    cases e with
    | word w =>
      obtain rfl : t = status h := List.mem_singleton.1 mem
      exact (status_mem_redraws h).imp_right (List.mem_cons_of_mem _)
    | redraw u =>
      rcases List.mem_cons.1 mem with rfl | mem
      · exact .inr List.mem_cons_self
      · exact (ih mem).imp_right (List.mem_cons_of_mem _)

theorem plain_status (plain : ∀ e ∈ h, e.Plain) : Plain (status h) := by
  rcases status_mem_redraws h with none_yet | mem
  · rw [none_yet]
    nofun
  · exact plain _ mem

/-! ## One happening more -/

theorem screen_redraw (plain : Plain t) (home : (screen h).passed = []) :
    screen (.redraw t :: h) = { screen h with ahead := overlay t (screen h).ahead } := by
  have written : (Progress.after (.redraw t :: h)).written.toText =
      (Progress.after h).written.toText ++ (t ++ ['\r']) := by
    simp only [Progress.after, Progress.draw, Transcript.toText_write, style_after, Sink.Style.apply,
      List.nil_append, List.append_nil]
  rw [screen, written, Screen.display_append, ← screen, Screen.display_return plain home]

/-- A word filled up with blanks to the length of the status. -/
def filledUp (w status : Text) : Text := w ++ List.replicate (status.length - w.length) ' '

theorem plain_filledUp {status : Text} (plain : Plain w) : Plain (filledUp w status) := by
  intro c mem
  rcases List.mem_append.1 mem with mem | mem
  · exact plain c mem
  · rw [List.eq_of_mem_replicate mem]
    decide

/-- The status is drawn on a fresh line, and nothing is drawn if there is none. -/
theorem display_drawn (plain : Plain t) (s : List Text) :
    Screen.display { finished := s } (Sink.Console.drawn {} t) = { finished := s, ahead := t } := by
  unfold Sink.Console.drawn
  cases t with
  | nil => rfl
  | cons c t =>
    simp only [List.isEmpty_cons, Bool.false_eq_true, if_false, Sink.Style.apply, List.nil_append, List.append_nil]
    rw [Screen.display_return plain rfl, overlay, List.drop_nil, List.append_nil]

theorem screen_word (plain_word : Plain w) (plain : Plain (status h)) (home : (screen h).passed = []) :
    screen (.word w :: h) =
      { finished := overlay (filledUp w (status h)) (screen h).ahead :: (screen h).finished, ahead := status h } := by
  have written : (Progress.after (.word w :: h)).written.toText =
      (Progress.after h).written.toText ++
        (filledUp w (status h) ++ ['\n'] ++ Sink.Console.drawn {} (status h)) := by
    simp only [Progress.after, Progress.showWord, Sink.Console.write, Transcript.toText_write, style_after]
    rfl
  rw [screen, written, Screen.display_append, ← screen, Screen.display_append,
    Screen.display_feed (plain_filledUp plain_word) home, display_drawn plain]

/-! ## What the lines show -/

/-- After each happening the cursor stands at the beginning of the line. -/
theorem passed_screen (plain : ∀ e ∈ h, e.Plain) : (screen h).passed = [] := by
  induction h with
  | nil => rfl
  | cons e h ih =>
    obtain ⟨this, others⟩ := List.forall_mem_cons.1 plain
    cases e with
    | word w => rw [screen_word this (plain_status others) (ih others)]
    | redraw t =>
      rw [screen_redraw this (ih others)]
      exact ih others

/-- **A line shows what was drawn on it**, one text over the other. -/
theorem line_eq_covered (plain : ∀ e ∈ h, e.Plain) : (screen h).line = covered (drawn h) := by
  rw [Screen.line, passed_screen plain, List.nil_append]
  induction h with
  | nil => rfl
  | cons e h ih =>
    obtain ⟨this, others⟩ := List.forall_mem_cons.1 plain
    cases e with
    | word w =>
      rw [screen_word this (plain_status others) (passed_screen others)]
      exact (overlay_of_length_le (Nat.zero_le _)).symm
    | redraw t =>
      rw [screen_redraw this (passed_screen others), drawn, covered_cons, ← ih others]

theorem covers_iff (plain : ∀ e ∈ h, e.Plain) : Covers n h ↔ (screen h).line.length ≤ n := by
  rw [line_eq_covered plain, length_covered_le_iff, Covers]

theorem getLast?_line_ne (plain : ∀ e ∈ h, e.Plain) (edged : ∀ e ∈ h, e.Edged) :
    (screen h).line.getLast? ≠ some ' ' := by
  rw [line_eq_covered plain]
  refine getLast?_covered_ne fun t mem => ?_
  rcases drawn_mem_redraws mem with rfl | redrawn
  · nofun
  · exact edged _ redrawn

theorem finished_word (plain : ∀ e ∈ .word w :: h, e.Plain) :
    (screen (.word w :: h)).finished = overlay (filledUp w (status h)) (screen h).line :: (screen h).finished := by
  obtain ⟨this, others⟩ := List.forall_mem_cons.1 plain
  have home := passed_screen others
  rw [screen_word this (plain_status others) home, Screen.line, home, List.nil_append]

/-- Finished lines stay as they are, and each word finishes one. -/
theorem exists_finished_append (later : List Happening) (plain : ∀ e ∈ later ++ h, e.Plain) :
    ∃ newer, (screen (later ++ h)).finished = newer ++ (screen h).finished ∧
      newer.length = (words later).length := by
  induction later with
  | nil => exact ⟨[], rfl, rfl⟩
  | cons e later ih =>
    rw [List.cons_append] at plain ⊢
    obtain ⟨this, others⟩ := List.forall_mem_cons.1 plain
    obtain ⟨newer, finished, length⟩ := ih others
    cases e with
    | word w =>
      refine ⟨overlay (filledUp w (status (later ++ h))) (screen (later ++ h)).line :: newer, ?_, ?_⟩
      · rw [finished_word plain, finished, List.cons_append]
      · rw [List.length_cons, length]
        rfl
    | redraw t =>
      refine ⟨newer, ?_, length⟩
      rw [screen_redraw this (passed_screen others), finished]

theorem length_finished (plain : ∀ e ∈ h, e.Plain) : (screen h).finished.length = (words h).length := by
  obtain ⟨newer, finished, length⟩ := exists_finished_append (h := []) h (by rwa [List.append_nil])
  rw [List.append_nil] at finished
  rw [finished, List.length_append, length]
  rfl

/-- The line of a word shows nothing else exactly if it covers what was drawn there. -/
theorem shows_word (plain : ∀ e ∈ h, e.Plain) (w : Text) :
    (Covers (max w.length (status h).length) h → Shows w (overlay (filledUp w (status h)) (screen h).line)) ∧
      ((∀ e ∈ h, e.Edged) → Shows w (overlay (filledUp w (status h)) (screen h).line) →
        Covers (max w.length (status h).length) h) := by
  have width : max w.length (status h).length = w.length + ((status h).length - w.length) := by omega
  rw [width, covers_iff plain]
  constructor
  · intro short
    exact shows_of_length_le short
  · intro edged shows
    exact length_le_of_shows (getLast?_line_ne plain edged) shows

/-- So does the line under way, with the status. -/
theorem shows_status (plain : ∀ e ∈ h, e.Plain) :
    (Covers (status h).length h → Shows (status h) (screen h).line) ∧
      ((∀ e ∈ h, e.Edged) → Shows (status h) (screen h).line → Covers (status h).length h) := by
  cases h with
  | nil =>
    constructor
    · intro _
      decide
    · intro _ _
      nofun
  | cons e h =>
    obtain ⟨-, others⟩ := List.forall_mem_cons.1 plain
    cases e with
    | word w =>
      -- the status alone was drawn
      have line : (screen (.word w :: h)).line = status h := by
        rw [line_eq_covered plain]
        exact overlay_of_length_le (Nat.zero_le _)
      rw [show status (.word w :: h) = status h from rfl, line]
      constructor
      · intro _
        refine ⟨List.prefix_rfl, fun c mem => ?_⟩
        rw [List.drop_length] at mem
        cases mem
      · intro _ _ t mem
        have same : t = status h := List.mem_singleton.1 mem
        exact Nat.le_of_eq (congrArg List.length same)
    | redraw t =>
      have line : (screen (.redraw t :: h)).line = overlay (t ++ List.replicate 0 ' ') (screen h).line := by
        rw [line_eq_covered plain, line_eq_covered others, List.replicate_zero, List.append_nil, drawn, covered_cons]
      have covers : Covers t.length (.redraw t :: h) ↔ (screen h).line.length ≤ t.length + 0 := by
        rw [← covers_iff others, Nat.add_zero, Covers, drawn, List.forall_mem_cons, Covers,
          and_iff_right (Nat.le_refl _)]
      rw [show status (.redraw t :: h) = t from rfl, line, covers]
      constructor
      · intro short
        exact shows_of_length_le short
      · intro edged shows
        refine length_le_of_shows (getLast?_line_ne others ?_) shows
        exact (List.forall_mem_cons.1 edged).2

/-- **What the lines of the terminal show.** There is a finished line for each word. It shows what was drawn on it:
the statuses, and over them the word, filled up with blanks to the status in force. The word stands alone on it if it
reaches as far, with the blanks, as everything that was drawn there; and only then, unless what stays to be seen is
itself blank. The same holds of the line under way and the status. -/
theorem words_stand_alone_where_they_cover (h : List Happening) (plain : ∀ e ∈ h, e.Plain) :
    (screen h).finished.length = (words h).length ∧
      (∀ later w earlier, h = later ++ .word w :: earlier →
        ∃ line, (screen h).finished[(words later).length]? = some line ∧
          line = overlay (filledUp w (status earlier)) (covered (drawn earlier)) ∧
          (Covers (max w.length (status earlier).length) earlier → Shows w line) ∧
          ((∀ e ∈ earlier, e.Edged) → Shows w line → Covers (max w.length (status earlier).length) earlier)) ∧
      (screen h).line = covered (drawn h) ∧
      (Covers (status h).length h → Shows (status h) (screen h).line) ∧
      ((∀ e ∈ h, e.Edged) → Shows (status h) (screen h).line → Covers (status h).length h) := by
  refine ⟨length_finished plain, ?_, line_eq_covered plain, shows_status plain⟩
  rintro later w earlier rfl
  have until_word : ∀ e ∈ .word w :: earlier, e.Plain := fun e mem => plain e (List.mem_append_right _ mem)
  have others := (List.forall_mem_cons.1 until_word).2
  obtain ⟨newer, finished, length⟩ := exists_finished_append later plain
  rw [← line_eq_covered others]
  refine ⟨_, ?_, rfl, shows_word others w⟩
  rw [finished, ← length, List.getElem?_append_right (Nat.le_refl _), Nat.sub_self, finished_word until_word,
    List.getElem?_cons_zero]

/-- A status in the middle of a run, with so many units in flight. -/
def inFlight (n : Nat) : Text := Progress.report 7 (.reading false 1) n

/-- With ten units in flight a word stands alone; with nine of them the status does not. -/
theorem words_stand_alone_where_they_cover_ten :
    let h : List Happening := [.redraw (inFlight 9), .word ['a'], .redraw (inFlight 10)]
    (∀ e ∈ h, e.Plain) ∧ (∃ line, (screen h).finished[0]? = some line ∧ Shows ['a'] line) ∧
      ¬Shows (inFlight 9) (screen h).line := by
  intro h
  have plain : ∀ e ∈ h, e.Plain := by decide +kernel
  obtain ⟨-, finished, -, -, only⟩ := words_stand_alone_where_they_cover h plain
  obtain ⟨line, found, -, alone, -⟩ := finished [.redraw (inFlight 9)] ['a'] [.redraw (inFlight 10)] rfl
  refine ⟨plain, ⟨line, found, alone (by decide +kernel)⟩, fun shows => ?_⟩
  have edged : ∀ e ∈ h, e.Edged := by decide +kernel
  exact absurd (only edged shows) (by decide +kernel)

/-- **A status that gets shorter leaves something behind.** When the line is drawn again with nine units in
flight instead of ten, the last bracket stays, behind the status and then behind the word. -/
theorem remains_of_a_longer_status :
    let h : List Happening := [.redraw (inFlight 9), .redraw (inFlight 10)]
    (∀ e ∈ h, e.Plain) ∧ ¬Shows (status h) (screen h).line ∧
      ∃ line ∈ (screen (.word ['b'] :: h)).finished, ¬Shows ['b'] line := by
  decide +kernel

-- The same goes for a sink alone that finds the shorter status with the next word: the line of `b` shows
-- neither word.
example :
    let console : Sink.Console := { statuses := some [inFlight 10, inFlight 9] }
    let shown := Screen.display {} ((console.write ['a']).write ['b']).written.toText
    ∃ line ∈ shown.finished, ¬Shows ['a'] line ∧ ¬Shows ['b'] line := by
  decide +kernel

end SemiThue.Terminal
