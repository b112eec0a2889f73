/-
A shortest chain of steps between two texts, searched from both ends.

Each side of the search holds what it has reached and the fringe it reached last. In a round the side
with the smaller fringe (the near side, if they are equal) gives up its fringe, follows every step from
every text of it in order, and makes a new fringe of what it had not reached before. The search ends
when a step leads to something that the other side has reached, or when a fringe is empty.

The near side follows steps forwards and the far side follows them backwards; apart from that they are
alike, and one definition serves both. What a side has reached is kept as the steps by which it was
reached, the newest first, so the way back to the origin is read off by one pass over the list.

The search ends: every round either makes something reached that was not, and there are only as many
such texts as there are steps, or leaves its side without a fringe.
-/
import SemiThue.Derivation.Step
import SemiThue.Measure

set_option autoImplicit false

namespace SemiThue.Derivation

/-- The direction in which steps are followed. -/
inductive Direction where
  /-- From the text before to the text after. -/
  | forwards
  /-- From the text after to the text before. -/
  | backwards
deriving DecidableEq, Repr

namespace Direction

/-- Where a step that is followed leads to. -/
def goal : Direction → Step → Text
  | forwards, s => s.output
  | backwards, s => s.source

/-- Where a step that is followed comes from. -/
def origin : Direction → Step → Text
  | forwards, s => s.source
  | backwards, s => s.output

end Direction

/-- One of the two sides of a search. -/
structure Side where
  /-- The direction in which this side follows steps. -/
  direction : Direction
  /-- The steps, each under the text that it comes from. -/
  links : Links
  /-- The steps by which texts beyond the origin were reached, the newest first. -/
  reached : List Step
  /-- The origin and what was reached from there. -/
  known : Text.Table Unit
  /-- What was reached in the last round of this side, the newest first. -/
  fringe : List Text

namespace Side

/-- A side that has reached its origin only. -/
def start (direction : Direction) (links : Links) (origin : Text) : Side :=
  ⟨direction, links, [], ({} : Text.Table Unit).insert origin (), [origin]⟩

/-- The side has reached the text. -/
def knows (a : Side) (t : Text) : Bool := a.known.contains t

/-- The steps from a text, in the order in which they came. -/
def stepsFrom (a : Side) (t : Text) : List Step := (a.links.under t).reverse

/-- Notes where a step leads to, unless that was reached before. -/
def reach (a : Side) (s : Step) : Side :=
  let target := a.direction.goal s
  if a.knows target then a
  else
    { a with
      reached := s :: a.reached
      known := a.known.insert target ()
      fringe := target :: a.fringe }

/-- Follows steps until one of them meets the other side. -/
def follow (other : Side) : List Step → Side → Side × Option Text
  | [], a => (a, none)
  | s :: steps, a =>
    let a := a.reach s
    if other.knows (a.direction.goal s) then (a, some (a.direction.goal s)) else follow other steps a

/-- Follows the steps from several texts until one of them meets the other side. -/
def followAll (other : Side) : List Text → Side → Side × Option Text
  | [], a => (a, none)
  | source :: sources, a =>
    match follow other (a.stepsFrom source) a with
    | (a, some meeting) => (a, some meeting)
    | (a, none) => followAll other sources a

/-- One round: the fringe is given up and a new one is made. -/
def round (other a : Side) : Side × Option Text :=
  followAll other a.fringe.reverse { a with fringe := [] }

/-- The steps on the way from a text back to the origin of a side, read off the steps by which texts
were reached. -/
def wayBack (direction : Direction) : List Step → Text → List Step
  | [], _ => []
  | s :: older, t =>
    if t = direction.goal s then s :: wayBack direction older (direction.origin s)
    else wayBack direction older t

/-! ## What a round achieves -/

/-- How many steps lead to something that was not reached yet. -/
def remaining (a : Side) : Nat := a.links.all.countP fun s => !a.knows (a.direction.goal s)

/-- How much there is to do for a side: steps to follow, then a fringe to give up. -/
def effort (a : Side) : Nat := a.remaining * (a.links.all.length + 1) + a.fringe.length

@[simp] theorem links_reach (a : Side) (s : Step) : (a.reach s).links = a.links := by
  unfold reach; dsimp only; split <;> rfl

@[simp] theorem direction_reach (a : Side) (s : Step) : (a.reach s).direction = a.direction := by
  unfold reach; dsimp only; split <;> rfl

/-- What was reached stays reached. -/
theorem knows_reach_of_knows {a : Side} {t : Text} (s : Step) (h : a.knows t = true) :
    (a.reach s).knows t = true := by
  unfold reach
  dsimp only
  split
  · exact h
  · simp only [knows] at h
    simp [knows, h]

/-- What was just reached is known. -/
theorem knows_reach_self (a : Side) (s : Step) : (a.reach s).knows (a.direction.goal s) = true := by
  unfold reach
  dsimp only
  split
  · assumption
  · simp [knows]

/-- Reaching the goal of a step for the first time leaves one step fewer. -/
theorem remaining_reach_lt {a : Side} {s : Step} (hm : s ∈ a.links.all)
    (h : a.knows (a.direction.goal s) = false) : (a.reach s).remaining < a.remaining := by
  unfold remaining
  rw [links_reach, direction_reach]
  refine Measure.countP_lt_countP_of_mem hm (by simp [h]) (by simp [knows_reach_self]) fun y _ hy => ?_
  cases ha : a.knows (a.direction.goal y) with
  | false => rfl
  | true => simp [knows_reach_of_knows s ha] at hy

theorem mem_stepsFrom {a : Side} {s : Step} {t : Text} (h : s ∈ a.stepsFrom t) : s ∈ a.links.all :=
  Links.mem_all_of_mem_under (List.mem_reverse.1 h)

/-- Following steps keeps the steps, reaches more, and pays for each new text of the fringe with a
step that is remaining no more. -/
theorem follow_facts (other : Side) (steps : List Step) (a : Side) (hm : ∀ s ∈ steps, s ∈ a.links.all) :
    (follow other steps a).1.links = a.links ∧
    (follow other steps a).1.fringe.length + (follow other steps a).1.remaining
      ≤ a.fringe.length + a.remaining ∧
    (follow other steps a).1.remaining ≤ a.remaining := by
  induction steps generalizing a with
  | nil => exact ⟨rfl, Nat.le_refl _, Nat.le_refl _⟩
  | cons s steps ih =>
    have hstep : (a.reach s).fringe.length + (a.reach s).remaining
        ≤ a.fringe.length + a.remaining ∧ (a.reach s).remaining ≤ a.remaining := by
      cases hk : a.knows (a.direction.goal s) with
      | true => simp [reach, hk]
      | false =>
        have := remaining_reach_lt (hm _ List.mem_cons_self) hk
        refine ⟨?_, by omega⟩
        have : (a.reach s).fringe.length = a.fringe.length + 1 := by simp [reach, hk]
        omega
    simp only [follow]
    split
    · exact ⟨links_reach .., hstep.1, hstep.2⟩
    · have := ih (a.reach s) (by
        intro t ht; rw [links_reach]; exact hm t (List.mem_cons_of_mem _ ht))
      rw [links_reach] at this
      exact ⟨this.1, by omega, by omega⟩

theorem followAll_facts (other : Side) (sources : List Text) (a : Side) :
    (followAll other sources a).1.links = a.links ∧
    (followAll other sources a).1.fringe.length + (followAll other sources a).1.remaining
      ≤ a.fringe.length + a.remaining ∧
    (followAll other sources a).1.remaining ≤ a.remaining := by
  induction sources generalizing a with
  | nil => exact ⟨rfl, Nat.le_refl _, Nat.le_refl _⟩
  | cons source sources ih =>
    have hf := follow_facts other (a.stepsFrom source) a fun _ hs => mem_stepsFrom hs
    simp only [followAll]
    split
    · rename_i b meeting heq
      rw [heq] at hf
      exact hf
    · rename_i b heq
      rw [heq] at hf
      have hb := ih b
      exact ⟨hb.1.trans hf.1, Nat.le_trans hb.2.1 hf.2.1, Nat.le_trans hb.2.2 hf.2.2⟩

/-- A round of a side that has a fringe leaves less to do for it. -/
theorem effort_round_lt (other a : Side) (h : a.fringe ≠ []) :
    (round other a).1.effort < a.effort := by
  have hf := followAll_facts other a.fringe.reverse { a with fringe := [] }
  have hr : ({ a with fringe := [] } : Side).remaining = a.remaining := rfl
  have hlen : ({ a with fringe := [] } : Side).fringe.length = 0 := rfl
  have hlinks : ({ a with fringe := [] } : Side).links = a.links := rfl
  rw [hr, hlen, hlinks] at hf
  have hpos : 0 < a.fringe.length := List.length_pos_iff.2 h
  unfold effort round
  rw [hf.1]
  generalize (followAll other a.fringe.reverse { a with fringe := [] }).1 = b at hf ⊢
  -- either nothing new was reached, and the fringe is empty, or a step fewer remains
  have hle : a.remaining ≤ a.links.all.length := List.countP_le_length
  by_cases hlt : b.remaining < a.remaining
  · have hb : b.fringe.length ≤ a.links.all.length := by omega
    have : (b.remaining + 1) * (a.links.all.length + 1) ≤ a.remaining * (a.links.all.length + 1) :=
      Nat.mul_le_mul_right _ hlt
    rw [Nat.succ_mul] at this
    omega
  · have heq : b.remaining = a.remaining := by omega
    rw [heq]
    omega

end Side

/-! ## The search -/

/-- Searches from both sides until they meet; the text where they met and both sides then. -/
def search (near far : Side) : Option (Side × Side × Text) :=
  if _h : near.fringe = [] ∨ far.fringe = [] then none
  else if near.fringe.length ≤ far.fringe.length then
    match _hr : Side.round far near with
    | (near', some meeting) => some (near', far, meeting)
    | (near', none) => search near' far
  else
    match _hr : Side.round near far with
    | (far', some meeting) => some (near, far', meeting)
    | (far', none) => search near far'
termination_by near.effort + far.effort
decreasing_by
  · have := Side.effort_round_lt far near fun e => _h (.inl e)
    rw [_hr] at this
    simp only at this
    omega
  · have := Side.effort_round_lt near far fun e => _h (.inr e)
    rw [_hr] at this
    simp only at this
    omega

/-- **The steps along a shortest chain** from one text to another, given all steps, by the text that
they leave and by the text that they arrive at. -/
def path? (leaving arriving : Links) (root target : Text) : Option (List Step) :=
  if root = target then some []
  else
    (search (.start .forwards leaving root) (.start .backwards arriving target)).map
      fun (near, far, meeting) =>
        (Side.wayBack .forwards near.reached meeting).reverse ++
          Side.wayBack .backwards far.reached meeting

end SemiThue.Derivation
