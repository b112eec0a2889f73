/-
Why a run on a pool ends, whoever moves.

Every move uses up some of the effort that the state still asks for. A worker asks for a little at
each point and for some more for each rule that it has not applied yet, and a unit in the queue for as
much as a worker that begins with it. The one move that makes work out of nothing, finding a live text
new, takes a text out of the universe of those that may still be found; what is asked for a text that
may still be found is therefore set so high that it pays for the unit that comes of it. In the relaxed
mode two workers can find the same text new, and each of them has brought the price along.

Every text that a state speaks of stays within the universe: that is the invariant `Pool.Within`.
-/
import SemiThue.Exploration.Pool.Basic
import SemiThue.Exploration.Universe

set_option autoImplicit false

namespace SemiThue.Exploration

variable {σ : Type}

/-! ## Prices -/

/-- The effort that one text can cause when so many texts, itself included, may still be found. -/
def spawn (rules : Nat) : Nat → Nat
  | 0 => 0
  | k + 1 => 6 + rules * (10 + spawn rules k)

theorem spawn_le_succ (rules k : Nat) : spawn rules k ≤ spawn rules (k + 1) := by
  induction k with
  | zero => simp [spawn]
  | succ k ih =>
    have := Nat.mul_le_mul_left rules (Nat.add_le_add_left ih 10)
    simp only [spawn] at this ⊢
    omega

theorem spawn_mono {rules j k : Nat} (h : j ≤ k) : spawn rules j ≤ spawn rules k := by
  induction h with
  | refl => exact Nat.le_refl _
  | step _ ih => exact Nat.le_trans ih (spawn_le_succ rules _)

namespace Plan

/-- The characters that texts of the run are made of. -/
def letters (plan : Plan σ) : List Char := plan.scope.grammar.charactersFrom plan.start

/-- How many texts may still be found. -/
def remaining (plan : Plan σ) (v : Visited) : Nat := unvisited plan.letters plan.scope.limit v

/-- What is asked for a text that may still be found. -/
def findingEffort (plan : Plan σ) (v : Visited) : Nat :=
  spawn plan.scope.grammar.rules.length (plan.remaining v)

/-- What is asked for a unit. -/
def unitEffort (plan : Plan σ) (v : Visited) : Nat :=
  spawn plan.scope.grammar.rules.length (plan.remaining v + 1)

theorem unitEffort_eq (plan : Plan σ) (v : Visited) :
    plan.unitEffort v = 6 + plan.scope.grammar.rules.length * (10 + plan.findingEffort v) := rfl

/-- One set of visited texts may follow another: nothing was found, or one text of the universe. -/
def Onward (plan : Plan σ) (v w : Visited) : Prop :=
  w = v ∨ ∃ t, t ∉ v ∧ t.Over plan.letters ∧ (t.length : Int) ≤ plan.scope.limit ∧ w = v.insert t

variable {plan : Plan σ} {v w : Visited}

theorem Onward.remaining_le (h : plan.Onward v w) : plan.remaining w ≤ plan.remaining v := by
  rcases h with rfl | ⟨t, -, -, -, rfl⟩
  · exact Nat.le_refl _
  · exact unvisited_le fun s hs => Visited.mem_insert.2 (.inr hs)

/-- A text that was found is one less to be found. -/
theorem Onward.remaining_lt (h : plan.Onward v w) {t : Text} (hv : t ∉ v) (hw : t ∈ w) :
    plan.remaining w < plan.remaining v := by
  rcases h with rfl | ⟨s, hs, ho, hl, rfl⟩
  · exact absurd hw hv
  · exact unvisited_insert_lt hl ho hs

theorem Onward.findingEffort_le (h : plan.Onward v w) : plan.findingEffort w ≤ plan.findingEffort v :=
  spawn_mono h.remaining_le

theorem Onward.unitEffort_le (h : plan.Onward v w) : plan.unitEffort w ≤ plan.unitEffort v :=
  spawn_mono (Nat.add_le_add_right h.remaining_le 1)

/-- **Finding a text pays for the unit that comes of it.** -/
theorem Onward.unitEffort_le_findingEffort (h : plan.Onward v w) {t : Text} (hv : t ∉ v) (hw : t ∈ w) :
    plan.unitEffort w ≤ plan.findingEffort v := spawn_mono (h.remaining_lt hv hw)

end Plan

/-! ## The effort of a state -/

/-- What a worker asks for at a point, apart from the rules that it has not applied yet. -/
def Point.effort (plan : Plan σ) (v : Visited) : Point → Nat
  | .entering => 5
  | .opening => 4
  | .applying => 3
  | .recording _ => 12 + plan.findingEffort v
  | .linking _ => 11 + plan.findingEffort v
  | .announcing _ => 10 + plan.findingEffort v
  | .telling _ => 4
  | .claiming _ => 9 + plan.findingEffort v
  | .marking t => 8 + if t ∈ v then plan.unitEffort v else plan.findingEffort v
  | .checking _ => 7 + plan.unitEffort v
  | .counting _ => 6 + plan.unitEffort v
  | .submitting _ => 5 + plan.unitEffort v
  | .failing _ => 2
  | .leaving => 1

/-- What a worker asks for. -/
def Worker.effort (plan : Plan σ) (v : Visited) (w : Worker) : Nat :=
  w.point.effort plan v + w.todo.length * (10 + plan.findingEffort v)

/-- What the caller asks for. -/
def Caller.effort (plan : Plan σ) (v : Visited) : Caller → Nat
  | .counting => 4 + plan.unitEffort v
  | .submitting => 3 + plan.unitEffort v
  | .waiting => 2
  | .closing => 1
  | .finished => 0

/-- What a state asks for. -/
def Pool.effort (plan : Plan σ) (p : Pool σ) : Nat :=
  p.caller.effort plan p.shared.visited + p.shared.queue.toList.length * plan.unitEffort p.shared.visited +
    Measure.total (Worker.effort plan p.shared.visited) p.crew

section Onward

variable {plan : Plan σ} {v v' : Visited}

theorem Point.effort_le (h : plan.Onward v v') (point : Point) :
    point.effort plan v' ≤ point.effort plan v := by
  have hf := h.findingEffort_le
  have hu := h.unitEffort_le
  cases point with
  | marking t =>
    simp only [effort]
    split <;> split
    · omega
    · rename_i hw hv
      have := h.unitEffort_le_findingEffort hv hw
      omega
    · rename_i hw hv
      rcases h with rfl | ⟨s, -, -, -, rfl⟩
      · exact absurd hv hw
      · exact absurd (Visited.mem_insert.2 (.inr hv)) hw
    · omega
  | _ => simp only [effort]; omega

theorem Worker.effort_le (h : plan.Onward v v') (w : Worker) :
    w.effort plan v' ≤ w.effort plan v :=
  Nat.add_le_add (Point.effort_le h _)
    (Nat.mul_le_mul_left _ (Nat.add_le_add_left h.findingEffort_le 10))

theorem Caller.effort_le (h : plan.Onward v v') (c : Caller) :
    c.effort plan v' ≤ c.effort plan v := by
  have := h.unitEffort_le
  cases c <;> simp only [effort] <;> omega

end Onward

/-! ## Within the universe -/

/-- The texts of a point are within the universe. -/
def Point.Within (plan : Plan σ) : Point → Prop
  | .recording a | .linking a | .announcing a =>
    a.step.output.Over plan.letters ∧
      (a.verdict = .live → (a.step.output.length : Int) ≤ plan.scope.limit)
  | .claiming t | .marking t => t.Over plan.letters ∧ (t.length : Int) ≤ plan.scope.limit
  | .checking t | .counting t | .submitting t => t.Over plan.letters
  | _ => True

/-- A worker is on a text of the right characters and has only rules of the grammar before it. -/
structure Worker.Within (plan : Plan σ) (w : Worker) : Prop where
  /-- The unit is made of the right characters. -/
  unit : w.unit.Over plan.letters
  /-- The rules are those of the grammar. -/
  todo : ∀ r ∈ w.todo, r ∈ plan.scope.grammar.rules
  /-- The texts of the point are within the universe. -/
  point : w.point.Within plan

/-- Every text that a state speaks of is within the universe. -/
structure Pool.Within (plan : Plan σ) (p : Pool σ) : Prop where
  /-- The units that wait are made of the right characters. -/
  queue : ∀ t ∈ p.shared.queue.toList, t.Over plan.letters
  /-- The workers are within the universe. -/
  crew : ∀ w ∈ p.crew, w.Within plan

/-! ## One move of one worker -/

/-- What one move of a worker does as far as the effort goes. -/
structure Worker.Advance (plan : Plan σ) (w : Worker) (s s' : Shared σ) (w' : Option Worker) : Prop where
  /-- Nothing, or one text of the universe, was found. -/
  onward : plan.Onward s.visited s'.visited
  /-- The units that wait stay within the universe. -/
  queue : (∀ t ∈ s.queue.toList, t.Over plan.letters) → ∀ t ∈ s'.queue.toList, t.Over plan.letters
  /-- The worker stays within the universe. -/
  within : ∀ x ∈ w', x.Within plan
  /-- The worker and the queue ask for less. -/
  effort_lt : s'.queue.toList.length * plan.unitEffort s'.visited + w'.elim 0 (Worker.effort plan s'.visited) <
    s.queue.toList.length * plan.unitEffort s.visited + w.effort plan s.visited

theorem Worker.advance_of_eq {plan : Plan σ} {w : Worker} {s s' : Shared σ} {w' : Option Worker}
    (hv : s'.visited = s.visited) (hq : s'.queue = s.queue) (hw : ∀ x ∈ w', x.Within plan)
    (he : w'.elim 0 (Worker.effort plan s.visited) < w.effort plan s.visited) :
    Worker.Advance plan w s s' w' where
  onward := .inl hv
  queue h := hq ▸ h
  within := hw
  effort_lt := by rw [hv, hq]; omega

theorem Worker.advance_to {plan : Plan σ} {w : Worker} {s s' : Shared σ} {point : Point}
    (h : w.Within plan) (hv : s'.visited = s.visited) (hq : s'.queue = s.queue)
    (hp : point.Within plan) (he : point.effort plan s.visited < w.point.effort plan s.visited) :
    Worker.Advance plan w s s' (some { w with point }) :=
  advance_of_eq hv hq (by rintro x ⟨⟩; exact ⟨h.unit, h.todo, hp⟩)
    (by simp only [Option.elim, Worker.effort]; omega)

@[simp] theorem Shared.visited_fail (s : Shared σ) (unit : Text) (fault : Fault) :
    (s.fail unit fault).visited = s.visited := rfl

@[simp] theorem Shared.queue_fail (s : Shared σ) (unit : Text) (fault : Fault) :
    (s.fail unit fault).queue = s.queue := rfl

/-- **Each move of a worker is an advance.** -/
theorem Worker.advance_move {plan : Plan σ} {w : Worker} (h : w.Within plan) (s : Shared σ) :
    Worker.Advance plan w s (w.move plan s).1 (w.move plan s).2 := by
  obtain ⟨unit, todo, point⟩ := w
  have hp := h.point
  cases point with
  | entering =>
    refine advance_to h rfl rfl ?_ ?_ <;> split <;> simp [Point.Within, Point.effort]
  | opening => exact advance_to h rfl rfl trivial (by simp [Point.effort])
  | applying =>
    cases todo with
    | nil => exact advance_to h rfl rfl trivial (by simp [Point.effort])
    | cons rule todo =>
      have hr := h.todo rule List.mem_cons_self
      refine advance_of_eq rfl rfl ?_ ?_
      · rintro x ⟨⟩
        refine ⟨h.unit, fun r hr => h.todo r (List.mem_cons_of_mem _ hr), ?_, ?_⟩
        · exact Grammar.over_rewrite hr h.unit
        · exact Scope.length_le_limit_of_live
      · simp only [Worker.move, Option.elim, Worker.effort, Point.effort, List.length_cons,
          Nat.add_mul, Nat.one_mul]
        omega
  | recording a => exact advance_to h rfl rfl hp (by simp only [Point.effort]; omega)
  | linking a => exact advance_to h rfl rfl hp (by simp only [Point.effort]; omega)
  | announcing a =>
    refine advance_to h rfl rfl ?_ ?_
    · split
      · trivial
      · rename_i hl; exact ⟨hp.1, hp.2 hl⟩
      all_goals trivial
    · split <;> simp only [Point.effort] <;> omega
  | telling word =>
    simp only [Worker.move]
    split
    · exact advance_to h rfl rfl trivial (by simp [Point.effort])
    · unfold Point.afterFault
      refine advance_to h rfl rfl ?_ ?_ <;> split <;> simp [Point.Within, Point.effort]
  | claiming t =>
    simp only [Worker.move]
    split
    · exact advance_to h rfl rfl trivial (by simp only [Point.effort]; omega)
    · rename_i visited hc
      obtain ⟨hv, rfl⟩ := Visited.claim?_eq_some_iff.1 hc
      split
      · have ho : plan.Onward s.visited (s.visited.insert t) := .inr ⟨t, hv, hp.1, hp.2, rfl⟩
        refine ⟨ho, id, ?_, ?_⟩
        · rintro x ⟨⟩; exact ⟨h.unit, h.todo, hp.1⟩
        · have h₁ := ho.unitEffort_le_findingEffort hv (Visited.mem_insert.2 (.inl rfl))
          have h₂ := Nat.mul_le_mul_left s.queue.toList.length ho.unitEffort_le
          have h₃ := Nat.mul_le_mul_left todo.length (Nat.add_le_add_left ho.findingEffort_le 10)
          simp only [Option.elim, Worker.effort, Point.effort]
          omega
      · exact advance_to h rfl rfl hp (by simp only [Point.effort, if_neg hv]; omega)
  | marking t =>
    by_cases hv : t ∈ s.visited
    · refine advance_to h (Visited.insert_of_mem hv) rfl hp.1 ?_
      simp only [Point.effort, if_pos hv]; omega
    · have ho : plan.Onward s.visited (s.visited.insert t) := .inr ⟨t, hv, hp.1, hp.2, rfl⟩
      refine ⟨ho, id, ?_, ?_⟩
      · rintro x ⟨⟩; exact ⟨h.unit, h.todo, hp.1⟩
      · have h₁ := ho.unitEffort_le_findingEffort hv (Visited.mem_insert.2 (.inl rfl))
        have h₂ := Nat.mul_le_mul_left s.queue.toList.length ho.unitEffort_le
        have h₃ := Nat.mul_le_mul_left todo.length (Nat.add_le_add_left ho.findingEffort_le 10)
        simp only [Worker.move, Option.elim, Worker.effort, Point.effort, if_neg hv]
        omega
  | checking t =>
    refine advance_to h rfl rfl ?_ ?_ <;> split
    · trivial
    · exact hp
    all_goals simp only [Point.effort]; omega
  | counting t => exact advance_to h rfl rfl hp (by simp only [Point.effort]; omega)
  | submitting t =>
    simp only [Worker.move, Shared.submit?]
    split
    · rename_i s' hs
      split at hs
      · cases hs
        refine ⟨.inl rfl, fun hq u hu => ?_, ?_, ?_⟩
        · rw [Queue.toList_push] at hu
          rcases List.mem_append.1 hu with hu | hu
          · exact hq u hu
          · rw [List.mem_singleton.1 hu]; exact hp
        · rintro x ⟨⟩; exact ⟨h.unit, h.todo, trivial⟩
        · simp only [Option.elim, Worker.effort, Point.effort, Queue.toList_push, List.length_append,
            List.length_singleton, Nat.add_mul, Nat.one_mul]
          omega
      · cases hs
    · exact advance_to h rfl rfl trivial (by simp only [Point.effort]; omega)
  | failing fault => exact advance_to h rfl rfl trivial (by simp [Point.effort])
  | leaving =>
    refine advance_of_eq rfl rfl (by rintro x ⟨⟩) ?_
    simp only [Worker.move, Option.elim, Worker.effort, Point.effort]
    omega

/-! ## One move of a pool -/

namespace Pool

variable {plan : Plan σ} {p q : Pool σ}

theorem within_initial (plan : Plan σ) (trail : Trail σ) : (initial plan.start trail).Within plan :=
  ⟨by simp [initial], by simp [initial]⟩

/-- **Every move keeps a state within the universe, and the state asks for less afterwards.** -/
theorem Within.move (h : p.Within plan) {m : Move} (hm : p.move? plan m = some q) :
    q.Within plan ∧ q.effort plan < p.effort plan := by
  cases m with
  | caller =>
    obtain ⟨shared, crew, caller⟩ := p
    cases caller with
    | counting =>
      simp only [move?, Option.some.injEq] at hm
      subst hm
      refine ⟨⟨h.queue, h.crew⟩, ?_⟩
      simp only [effort, Caller.effort, Shared.countUp]
      omega
    | submitting =>
      simp only [move?, Option.some.injEq] at hm
      subst hm
      refine ⟨⟨fun t ht => ?_, h.crew⟩, ?_⟩
      · rw [Queue.toList_push] at ht
        rcases List.mem_append.1 ht with ht | ht
        · exact h.queue t ht
        · rw [List.mem_singleton.1 ht]; exact Grammar.over_start _ _
      · simp only [effort, Caller.effort, Queue.toList_push, List.length_append, List.length_singleton, Nat.add_mul,
          Nat.one_mul]
        omega
    | waiting =>
      simp only [move?] at hm
      split at hm
      · cases hm
        refine ⟨⟨h.queue, h.crew⟩, ?_⟩
        simp only [effort, Caller.effort]
        omega
      · cases hm
    | closing =>
      simp only [move?] at hm
      split at hm
      · cases hm
        refine ⟨⟨h.queue, h.crew⟩, ?_⟩
        simp only [effort, Caller.effort]
        omega
      · cases hm
    | finished => cases hm
  | begin i =>
    simp only [move?] at hm
    split at hm
    · rename_i unit queue hu
      obtain ⟨hu, hq⟩ := Queue.take?_eq_some hu
      split at hm
      · cases hm
        have hmem := List.mem_of_getElem? hu
        refine ⟨⟨fun t ht => h.queue t (List.mem_of_mem_eraseIdx (hq ▸ ht)), fun w hw => ?_⟩, ?_⟩
        · rcases List.mem_append.1 hw with hw | hw
          · exact h.crew w hw
          · rw [List.mem_singleton.1 hw]
            exact ⟨h.queue unit hmem, fun _ hr => hr, trivial⟩
        · have hi : i < p.shared.queue.toList.length := (List.getElem?_eq_some_iff.1 hu).1
          have hl : queue.toList.length + 1 = p.shared.queue.toList.length := by
            rw [hq, List.length_eraseIdx_of_lt hi]; omega
          simp only [effort, Measure.total_append, Measure.total_cons, Measure.total_nil, ← hl,
            Nat.add_mul, Nat.one_mul, Worker.effort, Point.effort]
          have := plan.unitEffort_eq p.shared.visited
          omega
      · cases hm
    · cases hm
  | work i =>
    simp only [move?] at hm
    split at hm
    · rename_i w hw
      have ha := Worker.advance_move (h.crew w (List.mem_of_getElem? hw)) p.shared
      have hc := Caller.effort_le ha.onward p.caller
      have hlt := ha.effort_lt
      have he : ∀ v, plan.Onward p.shared.visited v →
          Measure.total (Worker.effort plan v) (p.crew.eraseIdx i) ≤
            Measure.total (Worker.effort plan p.shared.visited) (p.crew.eraseIdx i) :=
        fun v hv => Measure.total_le_total fun x _ => Worker.effort_le hv x
      have h₁ := Measure.total_eraseIdx (Worker.effort plan p.shared.visited) hw
      split at hm
      · cases hm
      split at hm
      · rename_i shared x heq
        rw [heq] at ha hc hlt
        cases hm
        refine ⟨⟨ha.queue h.queue, fun y hy => ?_⟩, ?_⟩
        · rcases List.mem_or_eq_of_mem_set hy with hy | rfl
          · exact h.crew y hy
          · exact ha.within _ rfl
        · have h₂ := Measure.total_set (Worker.effort plan shared.visited) x hw
          have h₃ := Measure.total_eraseIdx (Worker.effort plan shared.visited) hw
          have h₄ := he _ ha.onward
          simp only [Option.elim, effort] at hc hlt h₄ ⊢
          omega
      · rename_i shared heq
        rw [heq] at ha hc hlt
        cases hm
        refine ⟨⟨ha.queue h.queue, fun y hy => h.crew y (List.mem_of_mem_eraseIdx hy)⟩, ?_⟩
        have h₄ := he _ ha.onward
        simp only [Option.elim, effort] at hc hlt h₄ ⊢
        omega
    · cases hm

end Pool

end SemiThue.Exploration
