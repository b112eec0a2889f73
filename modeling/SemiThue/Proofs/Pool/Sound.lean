/-
What the states of a run on a pool speak of.

Whatever the listener answers and whoever moves, every text that a state mentions was come upon, and only
texts to be taken up are come upon: the start, and live results of units. Workers that hold an
application, a word or a live text hold something that the rules made of their unit. `Pool.Sound` says
so; it is what every other statement about texts rests on.
-/
import SemiThue.Proofs.Pool.Calm
import SemiThue.Proofs.Reach

set_option autoImplicit false

namespace SemiThue.Exploration

variable {σ : Type}

/-! ## Points and workers -/

/-- What a point speaks of was made of the unit by some rule. -/
def Point.Sound (plan : Plan σ) (unit : Text) (visited : Visited) : Point → Prop
  | .recording a | .linking a | .announcing a => a ∈ plan.scope.applications unit
  | .telling word => word ∈ outputs .word (plan.scope.applications unit)
  | .claiming t => t ∈ outputs .live (plan.scope.applications unit)
  | .marking t => t ∈ outputs .live (plan.scope.applications unit) ∧ plan.atomic = false
  | .checking t | .counting t | .submitting t => t ∈ visited
  | _ => True

/-- A worker is on a text that was come upon, and has some of the rules before it. -/
structure Worker.Sound (plan : Plan σ) (visited : Visited) (w : Worker) : Prop where
  /-- The unit was come upon. -/
  unit : w.unit ∈ visited
  /-- The rules that are left are the last ones of the grammar. -/
  todo : w.todo <:+ plan.scope.grammar.rules
  /-- Before the unit is taken up, all rules are left. -/
  fresh : w.point = .entering ∨ w.point = .opening → w.todo = plan.scope.grammar.rules
  /-- What the point speaks of was made of the unit. -/
  point : w.point.Sound plan w.unit visited

/-- **Every text of a state was come upon**, and only texts to be taken up were. -/
structure Pool.Sound (plan : Plan σ) (p : Pool σ) : Prop where
  /-- The start was come upon. -/
  start : plan.start ∈ p.shared.visited
  /-- Only texts to be taken up were come upon. -/
  reach : ∀ t ∈ p.shared.visited, plan.scope.Reach plan.start t
  /-- The units that wait were come upon. -/
  queue : ∀ t ∈ p.shared.queue.toList, t ∈ p.shared.visited
  /-- What was taken up was come upon. -/
  taken : ∀ t ∈ p.shared.trail.taken, t ∈ p.shared.visited
  /-- The workers are sound. -/
  crew : ∀ w ∈ p.crew, w.Sound plan p.shared.visited

section Turn

variable {plan : Plan σ} {s s' : Shared σ} {w w' : Worker}

/-- What was come upon stays so. -/
theorem Worker.Turn.visited_mono (h : Worker.Turn plan s w s' w') {t : Text} (ht : t ∈ s.visited) :
    t ∈ s'.visited := by
  cases h with
  | claim => exact Visited.mem_insert.2 (.inr ht)
  | mark => exact Visited.mem_insert.2 (.inr ht)
  | _ => exact ht

theorem Point.Sound.mono {unit : Text} {v v' : Visited} (hv : ∀ t ∈ v, t ∈ v') {point : Point}
    (h : point.Sound plan unit v) : point.Sound plan unit v' := by
  cases point with
  | checking t => exact hv t h
  | counting t => exact hv t h
  | submitting t => exact hv t h
  | _ => exact h

theorem Worker.Sound.mono {v v' : Visited} (hv : ∀ t ∈ v, t ∈ v') (h : w.Sound plan v) :
    w.Sound plan v' :=
  ⟨hv _ h.unit, h.todo, h.fresh, h.point.mono hv⟩

/-- What a worker comes upon is a live result of its unit. -/
theorem Worker.Turn.visited_or_live (h : Worker.Turn plan s w s' w') (sound : w.Sound plan s.visited)
    {t : Text} (ht : t ∈ s'.visited) :
    t ∈ s.visited ∨ t ∈ outputs .live (plan.scope.applications w.unit) := by
  cases h with
  | claim =>
    rcases Visited.mem_insert.1 ht with rfl | ht
    · exact .inr sound.point
    · exact .inl ht
  | mark =>
    rcases Visited.mem_insert.1 ht with rfl | ht
    · exact .inr sound.point.1
    · exact .inl ht
  | _ => exact .inl ht

/-- What a worker hands to the pool was come upon. -/
theorem Worker.Turn.mem_queue (h : Worker.Turn plan s w s' w') (sound : w.Sound plan s.visited)
    {t : Text} (ht : t ∈ s'.queue.toList) : t ∈ s.queue.toList ∨ t ∈ s.visited := by
  cases h with
  | submit =>
    rw [Queue.toList_push, List.mem_append, List.mem_singleton] at ht
    rcases ht with ht | rfl
    · exact .inl ht
    · exact .inr sound.point
  | _ => exact .inl ht

/-- A worker takes up nothing but its unit, and has all rules before it then. -/
theorem Worker.Turn.mem_taken (h : Worker.Turn plan s w s' w') {t : Text} (ht : t ∈ s'.trail.taken) :
    t ∈ s.trail.taken ∨ ∃ todo, w = ⟨t, todo, .opening⟩ ∧ w' = ⟨t, todo, .applying⟩ := by
  cases h with
  | takeUp =>
    rcases List.mem_cons.1 ht with rfl | ht
    · exact .inr ⟨_, rfl, rfl⟩
    · exact .inl ht
  | announceWord => exact .inl (by simpa using ht)
  | announceLive => exact .inl (by simpa using ht)
  | announceNothing => exact .inl (by simpa using ht)
  | _ => exact .inl ht

/-- **A sound worker stays sound.** -/
theorem Worker.Turn.sound (h : Worker.Turn plan s w s' w') (sound : w.Sound plan s.visited) :
    w'.Sound plan s'.visited := by
  have unit := h.visited_mono sound.unit
  cases h with
  | turnAway => exact ⟨unit, sound.todo, by simp, trivial⟩
  | comeIn => exact ⟨unit, sound.todo, fun _ => sound.fresh (.inl rfl), trivial⟩
  | takeUp => exact ⟨unit, sound.todo, by simp, trivial⟩
  | runOut => exact ⟨unit, sound.todo, by simp, trivial⟩
  | @apply text rule todo =>
    have todo := sound.todo
    have rule_mem : rule ∈ plan.scope.grammar.rules := todo.subset List.mem_cons_self
    refine ⟨unit, (List.suffix_cons rule _).trans todo, by simp, ?_⟩
    exact Scope.mem_applications.2 ⟨rule, rule_mem, rfl⟩
  | enter => exact ⟨unit, sound.todo, by simp, sound.point⟩
  | link => exact ⟨unit, sound.todo, by simp, sound.point⟩
  | announceWord word =>
    exact ⟨unit, sound.todo, by simp, mem_outputs.2 ⟨_, sound.point, word, rfl⟩⟩
  | announceLive live =>
    exact ⟨unit, sound.todo, by simp, mem_outputs.2 ⟨_, sound.point, live, rfl⟩⟩
  | announceNothing => exact ⟨unit, sound.todo, by simp, trivial⟩
  | tell => exact ⟨unit, sound.todo, by simp, trivial⟩
  | refused => exact ⟨unit, sound.todo, by simp, trivial⟩
  | desert => exact ⟨unit, sound.todo, by simp, trivial⟩
  | known => exact ⟨unit, sound.todo, by simp, trivial⟩
  | claim => exact ⟨unit, sound.todo, by simp, Visited.mem_insert.2 (.inl rfl)⟩
  | find relaxed => exact ⟨unit, sound.todo, by simp, sound.point, relaxed⟩
  | mark => exact ⟨unit, sound.todo, by simp, Visited.mem_insert.2 (.inl rfl)⟩
  | giveUp => exact ⟨unit, sound.todo, by simp, trivial⟩
  | keep => exact ⟨unit, sound.todo, by simp, sound.point⟩
  | count => exact ⟨unit, sound.todo, by simp, sound.point⟩
  | submit => exact ⟨unit, sound.todo, by simp, trivial⟩
  | shutOut => exact ⟨unit, sound.todo, by simp, trivial⟩
  | note => exact ⟨unit, sound.todo, by simp, trivial⟩

end Turn

namespace Pool

variable {plan : Plan σ} {trail : Trail σ} {p q : Pool σ}

theorem sound_initial (plan : Plan σ) {trail : Trail σ} (fresh : trail.taken = []) :
    (initial plan.start trail).Sound plan where
  start := by simp [initial]
  reach t ht := by
    have : t = plan.start := by simpa [initial] using ht
    exact this ▸ .start
  queue t ht := by simp [initial] at ht
  taken t ht := by simp [initial, fresh] at ht
  crew w hw := by simp [initial] at hw

/-- **Every move keeps a state sound.** -/
theorem Sound.turn (h : p.Sound plan) {m : Move} (t : Turn plan p m q) : q.Sound plan := by
  cases t with
  | count => exact ⟨h.start, h.reach, h.queue, h.taken, h.crew⟩
  | submit =>
    refine ⟨h.start, h.reach, fun t ht => ?_, h.taken, h.crew⟩
    rw [Queue.toList_push, List.mem_append, List.mem_singleton] at ht
    rcases ht with ht | rfl
    · exact h.queue t ht
    · exact h.start
  | close => exact ⟨h.start, h.reach, h.queue, h.taken, h.crew⟩
  | finish => exact ⟨h.start, h.reach, h.queue, h.taken, h.crew⟩
  | @begin i unit queue taken free =>
    obtain ⟨hi, hq⟩ := Queue.take?_eq_some taken
    refine ⟨h.start, h.reach, fun t ht => ?_, h.taken, fun w hw => ?_⟩
    · exact h.queue t (List.mem_of_mem_eraseIdx (hq ▸ ht))
    · rcases List.mem_append.1 hw with hw | hw
      · exact h.crew w hw
      · rw [List.mem_singleton.1 hw]
        exact ⟨h.queue unit (List.mem_of_getElem? hi), List.suffix_refl _, fun _ => rfl, trivial⟩
  | @work i w w' shared at_i turn =>
    have own := h.crew w (List.mem_of_getElem? at_i)
    refine ⟨turn.visited_mono h.start, fun t ht => ?_, fun t ht => ?_, fun t ht => ?_, fun x hx => ?_⟩
    · rcases turn.visited_or_live own ht with ht | ht
      · exact h.reach t ht
      · exact (h.reach _ own.unit).of_mem_outputs ht
    · rcases turn.mem_queue own ht with ht | ht
      · exact turn.visited_mono (h.queue t ht)
      · exact turn.visited_mono ht
    · rcases turn.mem_taken ht with ht | ⟨todo, rfl, -⟩
      · exact turn.visited_mono (h.taken t ht)
      · exact turn.visited_mono own.unit
    · rcases (mem_set_crew_iff at_i w').1 hx with rfl | hx
      · exact turn.sound own
      · exact (h.crew x (List.mem_of_mem_eraseIdx hx)).mono fun _ => turn.visited_mono
  | leave => exact ⟨h.start, h.reach, h.queue, h.taken, fun w hw => h.crew w (List.mem_of_mem_eraseIdx hw)⟩

/-- **Every reachable state is sound**, if nothing was taken up in the beginning. -/
theorem Reachable.sound (fresh : trail.taken = []) (h : Reachable plan trail p) : p.Sound plan :=
  h.keeps (sound_initial plan fresh) fun _ hp ht => hp.turn ht

end Pool

end SemiThue.Exploration
