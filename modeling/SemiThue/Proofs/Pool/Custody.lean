/-
Where the texts of a run are.

A text that was come upon is in somebody's custody until it is taken up: the caller has the start, a
worker has the text it is about to schedule, the queue has the units that wait, and a worker that begins
has its unit. The trail keeps what was taken up. `Pool.places` counts the places at which a text is.

Claiming a text gives it a place. A place is lost only when something has gone wrong: a worker that meets
a failure gives up its unit, or the text that it was about to schedule. In the relaxed mode two workers
may mark the same text, and then there is a copy. Apart from what was lost and what was copied, a text is
in one place if it was come upon and in none otherwise. That is `Pool.Kept`, and it holds in every
reachable state.
-/
import SemiThue.Proofs.Pool.Sound

set_option autoImplicit false

namespace SemiThue.Exploration

variable {σ : Type}

namespace Visited

/-- One if a text was come upon, and zero otherwise. -/
def count (v : Visited) (t : Text) : Nat := if t ∈ v then 1 else 0

variable {v : Visited} {t : Text}

theorem count_of_mem (h : t ∈ v) : v.count t = 1 := if_pos h

theorem count_of_not_mem (h : t ∉ v) : v.count t = 0 := if_neg h

theorem count_insert_self (v : Visited) (t : Text) : (v.insert t).count t = 1 :=
  count_of_mem (mem_insert.2 (.inl rfl))

theorem count_insert_of_ne (v : Visited) {u : Text} (h : t ≠ u) : (v.insert u).count t = v.count t := by
  simp only [count, mem_insert, h, false_or]

end Visited

/-! ## Custody -/

/-- How often a worker has a text in its custody: its unit before it is taken up, and then a text that it
is about to schedule. -/
def Worker.holds (t : Text) (w : Worker) : Nat :=
  match w.point with
  | .entering | .opening => if w.unit = t then 1 else 0
  | .checking u | .counting u | .submitting u => if u = t then 1 else 0
  | _ => 0

/-- How often the caller has a text in its custody: the start, before it is handed over. -/
def Caller.holds (start t : Text) : Caller → Nat
  | .counting | .submitting => if start = t then 1 else 0
  | _ => 0

/-- **At how many places a text is.** -/
def Pool.places (plan : Plan σ) (t : Text) (p : Pool σ) : Nat :=
  p.caller.holds plan.start t + p.shared.queue.toList.count t +
    Measure.total (Worker.holds t) p.crew + p.shared.trail.taken.count t

/-- **A text is where it should be**: in one place if it was come upon, apart from losses, which need a
failure, and from copies, which need the relaxed mode. -/
def Pool.Kept (plan : Plan σ) (t : Text) (p : Pool σ) : Prop :=
  ∃ lost copied, p.places plan t + lost = p.shared.visited.count t + copied ∧
    (p.Calm → lost = 0) ∧ (plan.atomic = true → copied = 0)

/-- **One worker loses a text only to a failure, and copies one only in the relaxed mode.** -/
theorem Worker.Turn.kept {plan : Plan σ} {s s' : Shared σ} {w w' : Worker}
    (h : Worker.Turn plan s w s' w') (sound : w.Sound plan s.visited) (t : Text) :
    ∃ lost copied,
      s'.queue.toList.count t + w'.holds t + s'.trail.taken.count t + s.visited.count t + lost =
          s.queue.toList.count t + w.holds t + s.trail.taken.count t + s'.visited.count t + copied ∧
        (s'.failure = none → w'.Calm → lost = 0) ∧ (plan.atomic = true → copied = 0) := by
  cases h with
  | @turnAway unit todo noted =>
    -- the unit is given up, but then a failure was noted
    refine ⟨if unit = t then 1 else 0, 0, ?_, fun calm => ?_, fun _ => rfl⟩
    · simp only [Worker.holds]
      omega
    · rw [calm] at noted
      cases noted
  | @takeUp unit todo =>
    -- the unit goes from the worker to the trail
    refine ⟨0, 0, ?_, fun _ _ => rfl, fun _ => rfl⟩
    simp only [Worker.holds, Trail.taken_opened, List.count_cons, beq_iff_eq]
    omega
  | @claim unit todo u atomic new =>
    -- a text that was nowhere is with the worker
    refine ⟨0, 0, ?_, fun _ _ => rfl, fun _ => rfl⟩
    by_cases hu : u = t
    · subst hu
      simp only [Worker.holds, if_pos, Visited.count_insert_self, Visited.count_of_not_mem new]
      omega
    · simp only [Worker.holds, if_neg hu, Visited.count_insert_of_ne _ (Ne.symm hu)]
  | @mark unit todo u =>
    -- another worker may have marked the text since this one found it new
    refine ⟨0, if u = t then s.visited.count t else 0, ?_, fun _ _ => rfl, fun atomic => ?_⟩
    · by_cases hu : u = t
      · subst hu
        simp only [Worker.holds, if_pos, Visited.count_insert_self]
        omega
      · simp only [Worker.holds, if_neg hu, Visited.count_insert_of_ne _ (Ne.symm hu)]
    · have relaxed := sound.point.2
      rw [atomic] at relaxed
      cases relaxed
  | @giveUp unit todo u noted =>
    -- the text is given up, but then a failure was noted
    refine ⟨if u = t then 1 else 0, 0, ?_, fun calm => ?_, fun _ => rfl⟩
    · simp only [Worker.holds]
      omega
    · rw [calm] at noted
      cases noted
  | @submit unit todo u =>
    -- the text goes from the worker to the queue
    refine ⟨0, 0, ?_, fun _ _ => rfl, fun _ => rfl⟩
    simp only [Worker.holds, Queue.toList_push, List.count_append, List.count_singleton, beq_iff_eq]
    omega
  | @shutOut unit todo u =>
    refine ⟨if u = t then 1 else 0, 0, ?_, fun _ calm => absurd rfl (calm _), fun _ => rfl⟩
    simp only [Worker.holds, Shared.countDown]
    omega
  | announceWord => exact ⟨0, 0, by simp [Worker.holds], fun _ _ => rfl, fun _ => rfl⟩
  | announceLive => exact ⟨0, 0, by simp [Worker.holds], fun _ _ => rfl, fun _ => rfl⟩
  | announceNothing => exact ⟨0, 0, by simp [Worker.holds], fun _ _ => rfl, fun _ => rfl⟩
  | _ => exact ⟨0, 0, rfl, fun _ _ => rfl, fun _ => rfl⟩

namespace Pool

variable {plan : Plan σ} {trail : Trail σ} {p q : Pool σ}

theorem kept_initial (plan : Plan σ) {trail : Trail σ} (fresh : trail.taken = []) (t : Text) :
    (initial plan.start trail).Kept plan t := by
  refine ⟨0, 0, ?_, fun _ => rfl, fun _ => rfl⟩
  have hm : t ∈ Visited.ofList [plan.start] ↔ plan.start = t := by simp [eq_comm]
  simp only [places, initial, fresh, Caller.holds, Visited.count, hm, Queue.toList_empty,
    List.count_nil, Measure.total_nil]

/-- **Every move keeps every text where it should be.** -/
theorem Kept.turn {t : Text} (h : p.Kept plan t) (sound : p.Sound plan) {m : Move}
    (turn : Turn plan p m q) : q.Kept plan t := by
  obtain ⟨lost, copied, places, calm, atomic⟩ := h
  -- what is calm now was calm before, so nothing had been lost
  have calm : q.Calm → lost = 0 := fun hq => calm (turn.calm_of_calm hq)
  unfold Pool.places at places
  cases turn with
  | count caller =>
    refine ⟨lost, copied, ?_, calm, atomic⟩
    simp only [caller, Caller.holds] at places
    exact places
  | submit caller =>
    refine ⟨lost, copied, ?_, calm, atomic⟩
    simp only [caller, Caller.holds] at places
    simp only [Pool.places, Caller.holds, Queue.toList_push, List.count_append,
      List.count_singleton, beq_iff_eq]
    omega
  | close caller =>
    refine ⟨lost, copied, ?_, calm, atomic⟩
    simp only [caller, Caller.holds] at places
    exact places
  | finish caller =>
    refine ⟨lost, copied, ?_, calm, atomic⟩
    simp only [caller, Caller.holds] at places
    exact places
  | @begin i unit queue taken free =>
    -- the unit goes from the queue to a worker
    refine ⟨lost, copied, ?_, calm, atomic⟩
    obtain ⟨hi, hq⟩ := Queue.take?_eq_some taken
    obtain ⟨hlt, hi⟩ := List.getElem?_eq_some_iff.1 hi
    have count := (List.getElem_cons_eraseIdx_perm hlt).count_eq t
    rw [hi, ← hq, List.count_cons] at count
    simp only [beq_iff_eq] at count
    simp only [Pool.places, Measure.total_append, Measure.total_cons, Measure.total_nil, Worker.holds]
    omega
  | @work i w w' shared at_i turn =>
    obtain ⟨lost', copied', own, calm', atomic'⟩ := turn.kept (sound.crew w (List.mem_of_getElem? at_i)) t
    refine ⟨lost + lost', copied + copied', ?_, fun hq => ?_, fun ha => ?_⟩
    · have crew := Measure.total_set (Worker.holds t) w' at_i
      simp only [Pool.places]
      omega
    · obtain ⟨⟨failure, hw⟩, -⟩ := (calm_iff_of_set at_i w').1 hq
      rw [calm hq, calm' failure hw]
    · rw [atomic ha, atomic' ha]
  | @leave i w at_i point =>
    refine ⟨lost, copied, ?_, calm, atomic⟩
    -- a worker that leaves has nothing in its custody any more
    have crew := Measure.total_eraseIdx (Worker.holds t) at_i
    have own : w.holds t = 0 := by simp only [Worker.holds, point]
    simp only [Pool.places, Shared.countDown]
    omega

/-- **Every text is where it should be in every reachable state.** -/
theorem Reachable.kept (fresh : trail.taken = []) (h : Reachable plan trail p) (t : Text) :
    p.Kept plan t :=
  h.keeps (kept_initial plan fresh t) fun hp h ht => h.turn (hp.sound fresh) ht

/-- In the atomic mode no text is taken up twice, whether a failure was noted or not. -/
theorem Reachable.nodup_taken (fresh : trail.taken = []) (atomic : plan.atomic = true)
    (h : Reachable plan trail p) : p.shared.trail.taken.Nodup := by
  rw [List.nodup_iff_count]
  intro t
  obtain ⟨lost, copied, places, -, none_copied⟩ := h.kept fresh t
  have visited : p.shared.visited.count t ≤ 1 := by
    unfold Visited.count
    split <;> omega
  have := none_copied atomic
  unfold Pool.places at places
  omega

end Pool

end SemiThue.Exploration
