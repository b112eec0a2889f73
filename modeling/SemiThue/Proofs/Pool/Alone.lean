/-
A single worker does what the sequential strategy does.

With one worker that takes the units in the order in which they came, nobody has a choice: in every
state at most one move is possible (`Reachable.eq_next`). So all runs are parts of one run, and it is
enough to exhibit that one.

It is exhibited by going through the sequential loop. A generation and the one that is being collected
meanwhile are, one behind the other, the queue of the pool; that and the rest of what `Tracks` says is
kept by the application of one rule, hence by a text, a generation, and the whole exploration. While a
worker is on a text the text counts as outstanding on both sides, so that the two counts go together
as well, and a listener that sees them is told the same words under the same counts. When it refuses
one, the sequential strategy stops where it is. The pool does not: it goes through the units that wait,
and leaves all of them alone.

The journals differ, and nothing else does, as long as the listener stays. If it asks to leave, the
sequential strategy stops as before, but the pool has noted nothing and takes up the units that wait.
-/
import SemiThue.Proofs.Pool.FirstFailure
import SemiThue.Proofs.Sequential.Exhaustive

set_option autoImplicit false

namespace SemiThue.Exploration

variable {σ : Type}

/-! ## Trails without their journals -/

namespace Trail

/-- The trail with an empty journal. -/
def silent (t : Trail σ) : Trail σ := { t with journal := {} }

variable (t : Trail σ) (a : Application)

@[simp] theorem silent_opened (text : Text) : (t.opened text).silent = t.silent.opened text := rfl

@[simp] theorem silent_took : (t.took a).silent = (t.silent.counted a).recorded a := by
  unfold took announced
  split <;> rfl

/-- Without their journals trails are equal if they have the other things in common. -/
theorem silent_eq_iff {t t' : Trail σ} : t.silent = t'.silent ↔
    t.taken = t'.taken ∧ t.tally = t'.tally ∧ t.graph = t'.graph ∧ t.heard = t'.heard := by
  obtain ⟨taken, tally, graph, journal, heard⟩ := t
  obtain ⟨taken', tally', graph', journal', heard'⟩ := t'
  simp [silent]

end Trail

/-! ## Units in turn -/

/-- If the move begins a unit, it is the oldest one. -/
def Move.InTurn : Move → Prop
  | .begin i => i = 0
  | _ => True

namespace Pool

/-- **Some schedule leads from one state to another** and takes the units in turn. -/
def Leads (plan : Plan σ) (p q : Pool σ) : Prop :=
  ∃ ms : List Move, (∀ m ∈ ms, m.InTurn) ∧ p.follow? plan ms = some q

/-- Nobody is on a unit, and the caller waits. -/
def idle (s : Shared σ) : Pool σ := ⟨s, [], .waiting⟩

/-- One worker is on a unit, and the caller waits. -/
def alone (s : Shared σ) (w : Worker) : Pool σ := ⟨s, [w], .waiting⟩

section Leads

variable {plan : Plan σ} {trail : Trail σ} {p q r : Pool σ}

theorem Leads.refl (p : Pool σ) : Leads plan p p := ⟨[], by simp, rfl⟩

theorem Leads.trans (h : Leads plan p q) (h' : Leads plan q r) : Leads plan p r := by
  obtain ⟨ms, turns, path⟩ := h
  obtain ⟨ms', turns', path'⟩ := h'
  refine ⟨ms ++ ms', fun m hm => ?_, follow?_append path path'⟩
  rcases List.mem_append.1 hm with hm | hm
  · exact turns m hm
  · exact turns' m hm

theorem leads_of_move? {m : Move} (turn : m.InTurn) (h : p.move? plan m = some q) : Leads plan p q := by
  refine ⟨[m], fun m' hm => ?_, ?_⟩
  · rw [List.mem_singleton.1 hm]
    exact turn
  · rw [follow?_cons_of_move? h, follow?_nil]

theorem leads_after {ms : List Move} (turns : ∀ m ∈ ms, m.InTurn) :
    Leads plan (initial plan.start trail) (after plan trail ms) := by
  unfold after
  cases h : (initial plan.start trail).follow? plan ms with
  | none => exact .refl _
  | some p => exact ⟨ms, turns, h⟩

theorem Reachable.leads (h : Reachable plan trail p) (leads : Leads plan p q) : Reachable plan trail q := by
  obtain ⟨ms, -, path⟩ := leads
  exact h.follow path

/-! ## There is no choice -/

/-- **With one worker there is no choice**: if a move is possible and takes the units in turn, it is the
next one. -/
theorem Reachable.eq_next (one : plan.workers = 1) (h : Reachable plan trail p) {m : Move}
    (turn : m.InTurn) (hm : p.move? plan m = some q) : m = p.next := by
  have joined := h.joined
  -- the caller moves only when there are no units
  have callers : p.shared.queue.toList = [] → p.crew = [] → Move.caller = p.next := by
    intro queue crew
    simp [next, crew, Queue.isEmpty_iff.2 queue]
  cases turn_of_move? hm with
  | count caller =>
    obtain ⟨queue, crew⟩ := joined.empty (by simp [caller])
    exact callers queue crew
  | submit caller =>
    obtain ⟨queue, crew⟩ := joined.empty (by simp [caller])
    exact callers queue crew
  | close caller settled =>
    obtain ⟨queue, crew⟩ := joined.empty_of_close caller hm
    exact callers queue crew
  | finish caller crew queue => exact callers queue crew
  | @begin i unit queue taken free =>
    -- a worker that is free is all of them
    have crew : p.crew = [] := List.length_eq_zero_iff.1 (by omega)
    have some_unit : p.shared.queue.isEmpty = false := by
      rw [← Bool.not_eq_true, Queue.isEmpty_iff]
      intro empty
      have := (Queue.take?_eq_some taken).1
      rw [empty] at this
      cases this
    have first : i = 0 := turn
    simp [next, crew, some_unit, first]
  | @work i w w' shared at_i =>
    have hi := (List.getElem?_eq_some_iff.1 at_i).1
    have few := h.length_crew_le
    have first : i = 0 := by omega
    have some_worker : p.crew ≠ [] := List.ne_nil_of_length_pos (by omega)
    simp [next, some_worker, first, foremost_eq_zero (p := p) (by omega)]
  | @leave i w at_i =>
    have hi := (List.getElem?_eq_some_iff.1 at_i).1
    have few := h.length_crew_le
    have first : i = 0 := by omega
    have some_worker : p.crew ≠ [] := List.ne_nil_of_length_pos (by omega)
    simp [next, some_worker, first, foremost_eq_zero (p := p) (by omega)]

/-- **All runs are parts of one**: whatever a state leads to can be continued to the end. -/
theorem Leads.finish (one : plan.workers = 1) (h : Reachable plan trail p) (leads : Leads plan p q)
    {f : Pool σ} (ends : Leads plan p f) (finished : f.caller = .finished) : Leads plan q f := by
  obtain ⟨ms, turns, path⟩ := leads
  obtain ⟨ms', turns', path'⟩ := ends
  induction ms generalizing p ms' with
  | nil =>
    rw [follow?_nil, Option.some.injEq] at path
    subst path
    exact ⟨ms', turns', path'⟩
  | cons m ms ih =>
    obtain ⟨x, hx, path⟩ := Option.bind_eq_some_iff.1 path
    have first := h.eq_next one (turns m List.mem_cons_self) hx
    cases ms' with
    | nil =>
      -- nothing moves in a state that is finished
      rw [follow?_nil, Option.some.injEq] at path'
      subst path'
      rw [h.joined.move?_eq_none finished] at hx
      cases hx
    | cons m' ms' =>
      obtain ⟨x', hx', path'⟩ := Option.bind_eq_some_iff.1 path'
      have first' := h.eq_next one (turns' m' List.mem_cons_self) hx'
      have same : x' = x := by
        rw [first', ← first, hx] at hx'
        exact (Option.some.inj hx').symm
      subst same
      exact ih (h.step ⟨m, hx⟩) (fun m hm => turns m (List.mem_cons_of_mem _ hm)) path ms'
        (fun m hm => turns' m (List.mem_cons_of_mem _ hm)) path'

end Leads

/-! ## The moves of one worker -/

section Moves

variable {plan : Plan σ} {s s' : Shared σ} {w w' : Worker} {unit : Text} {todo : List Rule}

/-- A worker that is alone never waits for the lock. -/
theorem free_alone (s : Shared σ) (w : Worker) : (w.wantsLock && (alone s w).isLocked) = false := by
  cases holds : w.holdsLock with
  | true => rw [Worker.wantsLock_of_holdsLock holds, Bool.false_and]
  | false => simp [isLocked, alone, holds]

theorem leads_of_move (h : w.move plan s = (s', some w')) :
    Leads plan (alone s w) (alone s' w') := by
  refine leads_of_move? (m := .work 0) trivial ?_
  have at_0 : (alone s w).crew[0]? = some w := rfl
  simp only [move?, at_0, free_alone, Bool.false_eq_true, if_false]
  simp [alone, h]

theorem leads_of_leaving (h : w.point = .leaving) : Leads plan (alone s w) (idle s.countDown) := by
  refine leads_of_move? (m := .work 0) trivial ?_
  have at_0 : (alone s w).crew[0]? = some w := rfl
  simp only [move?, at_0, free_alone, Bool.false_eq_true, if_false]
  simp [alone, idle, Worker.move, h]

/-- The oldest unit of the queue is begun. -/
theorem leads_begin (plan : Plan σ) {text : Text} {rest : List Text} (queue : s.queue.toList = text :: rest) :
    ∃ others : Queue Text, others.toList = rest ∧
      Leads plan (idle s)
        (alone { s with queue := others } ⟨text, plan.scope.grammar.rules, .entering⟩) := by
  cases hq : s.queue.take? 0 with
  | none =>
    have := Queue.isSome_take?_iff (q := s.queue) (i := 0)
    simp [hq, queue] at this
  | some taken =>
    obtain ⟨first, others⟩ := taken
    obtain ⟨at_0, rest_eq⟩ := Queue.take?_eq_some hq
    rw [queue, List.getElem?_cons_zero, Option.some.injEq] at at_0
    rw [queue, List.eraseIdx_cons_zero] at rest_eq
    refine ⟨others, rest_eq, leads_of_move? (m := .begin 0) rfl ?_⟩
    simp [move?, idle, alone, hq, at_0, plan.workers_pos]

/-- An application is recorded, in two moves. -/
theorem leads_recorded (a : Application) :
    Leads plan (alone s ⟨unit, todo, .recording a⟩)
      (alone { s with trail := s.trail.recorded a } ⟨unit, todo, .announcing a⟩) := by
  rw [← Trail.linked_entered]
  have enter : Leads plan (alone s ⟨unit, todo, .recording a⟩)
      (alone { s with trail := s.trail.entered a } ⟨unit, todo, .linking a⟩) := leads_of_move rfl
  exact enter.trans (leads_of_move rfl)

/-- **A rule is applied**, and the result is counted, recorded and announced. -/
theorem leads_judged (rule : Rule) :
    let a := plan.scope.apply unit rule
    Leads plan (alone s ⟨unit, rule :: todo, .applying⟩)
      (alone { s with trail := s.trail.took a }
        ⟨unit, todo, match a.verdict with
          | .word => .telling a.step.output
          | .live => .claiming a.step.output
          | .dropped | .unchanged => .applying⟩) := by
  intro a
  have apply : Leads plan (alone s ⟨unit, rule :: todo, .applying⟩)
      (alone { s with trail := s.trail.counted a } ⟨unit, todo, .recording a⟩) := leads_of_move rfl
  exact apply.trans ((leads_recorded a).trans (leads_of_move rfl))

/-- While no failure was noted, a text that was claimed is counted and handed to the pool. -/
theorem leads_scheduled {t : Text} (calm : s.failure = none) (accepting : s.accepting = true) :
    Leads plan (alone s ⟨unit, todo, .checking t⟩)
      (alone { s with outstanding := s.outstanding.up, queue := s.queue.push t }
        ⟨unit, todo, .applying⟩) := by
  have keep : Leads plan (alone s ⟨unit, todo, .checking t⟩) (alone s ⟨unit, todo, .counting t⟩) :=
    leads_of_move (by simp [Worker.move, calm])
  have count : Leads plan (alone s ⟨unit, todo, .counting t⟩)
      (alone s.countUp ⟨unit, todo, .submitting t⟩) := leads_of_move rfl
  refine keep.trans (count.trans (leads_of_move ?_))
  simp [Worker.move, Shared.submit?, Shared.countUp, accepting]

/-- **A live text is claimed** in one move or in two, and is scheduled if it is new. -/
theorem leads_claimed {t : Text} (calm : s.failure = none) (accepting : s.accepting = true) :
    Leads plan (alone s ⟨unit, todo, .claiming t⟩)
      (alone (match s.visited.claim? t with
        | none => s
        | some visited =>
          { s with visited, outstanding := s.outstanding.up, queue := s.queue.push t })
        ⟨unit, todo, .applying⟩) := by
  cases found : s.visited.claim? t with
  | none => exact leads_of_move (by simp [Worker.move, found])
  | some visited =>
    obtain ⟨-, rfl⟩ := Visited.claim?_eq_some_iff.1 found
    have marked : Leads plan (alone s ⟨unit, todo, .claiming t⟩)
        (alone { s with visited := s.visited.insert t } ⟨unit, todo, .checking t⟩) := by
      cases ha : plan.atomic with
      | true => exact leads_of_move (by simp [Worker.move, found, ha])
      | false =>
        have new : Leads plan (alone s ⟨unit, todo, .claiming t⟩) (alone s ⟨unit, todo, .marking t⟩) :=
          leads_of_move (by simp [Worker.move, found, ha])
        exact new.trans (leads_of_move rfl)
    exact marked.trans (leads_scheduled calm accepting)

/-- **A word is told**, and what the worker does next depends on the answer. -/
theorem leads_told {word : Text} {heard : σ} {answer : Option Fault}
    (told : plan.listener s.outstanding word s.trail.heard = (heard, answer)) :
    Leads plan (alone s ⟨unit, todo, .telling word⟩)
      (alone { s with trail := { s.trail with heard } }
        ⟨unit, todo, answer.elim .applying .afterFault⟩) := by
  refine leads_of_move ?_
  cases answer <;> simp [Worker.move, Trail.tell_eq, told]

end Moves

/-! ## Going through the loop -/

end Pool

/-- **What is shared by the workers tracks a state of the sequential loop** in which these texts are
left of the generation. -/
structure Shared.Tracks (rest : List Text) (s : Shared σ) (t : Sequential.State σ) : Prop where
  /-- The units that wait are the rest of the generation and what was collected for the next one. -/
  queue : s.queue.toList = rest ++ t.next.reverse
  /-- The pool takes units. -/
  accepting : s.accepting = true
  /-- No failure was noted. -/
  calm : s.failure = none
  /-- The counts are the same. -/
  outstanding : s.outstanding = t.outstanding
  /-- The same texts were come upon. -/
  visited : s.visited = t.visited
  /-- Apart from the journals the trails are the same. -/
  trail : s.trail.silent = t.trail.silent

namespace Pool

section Loops

variable {plan : Plan σ} {s : Shared σ} {t : Sequential.State σ} {rest : List Text}
  {unit : Text} {todo : List Rule} {p : Pool σ}

/-- What is shared after an application was counted, recorded and announced on both sides. -/
theorem tracks_took (h : s.Tracks rest t) (a : Application) :
    Shared.Tracks rest { s with trail := s.trail.took a } { t with trail := t.trail.took a } := by
  refine ⟨h.queue, h.accepting, h.calm, h.outstanding, h.visited, ?_⟩
  rw [Trail.silent_took, Trail.silent_took, h.trail]

/-- What is shared after a live text was claimed on both sides. -/
theorem tracks_claim (h : s.Tracks rest t) (u : Text) :
    Shared.Tracks rest
      (match s.visited.claim? u with
        | none => s
        | some visited =>
          { s with visited, outstanding := s.outstanding.up, queue := s.queue.push u })
      (t.claim u) := by
  unfold Sequential.State.claim
  rw [← h.visited]
  cases s.visited.claim? u with
  | none => exact h
  | some visited =>
    refine ⟨?_, h.accepting, h.calm, congrArg Outstanding.up h.outstanding, rfl, h.trail⟩
    simp [h.queue]

theorem tracks_told (h : s.Tracks rest t) (heard : σ) :
    Shared.Tracks rest { s with trail := { s.trail with heard } }
      { t with trail := { t.trail with heard } } := by
  obtain ⟨taken, tally, graph, -⟩ := Trail.silent_eq_iff.1 h.trail
  exact ⟨h.queue, h.accepting, h.calm, h.outstanding, h.visited,
    Trail.silent_eq_iff.2 ⟨taken, tally, graph, rfl⟩⟩

/-- **The loop has broken off** in this state with this fault: the worker that told the word stands behind
its call, and the fault is an answer of the listener. -/
structure Halts (plan : Plan σ) (p : Pool σ) (t : Sequential.State σ) (fault : Fault) : Prop where
  /-- The worker was answered with the fault. -/
  leads : ∃ s unit todo rest, s.Tracks rest t ∧
    Leads plan p (alone s ⟨unit, todo, .afterFault fault⟩)
  /-- The fault is an answer of the listener. -/
  answer : ∃ n word heard, (plan.listener n word heard).2 = some fault

/-- **One rule** on both sides. -/
theorem leads_applyRule (h : s.Tracks rest t) (rule : Rule)
    (leads : Leads plan p (alone s ⟨unit, rule :: todo, .applying⟩)) :
    Action.Ends
      (fun t => ∃ s, s.Tracks rest t ∧ Leads plan p (alone s ⟨unit, todo, .applying⟩))
      (Halts plan p)
      (Sequential.applyRule plan.scope plan.listener unit rule t) := by
  have took := tracks_took h (plan.scope.apply unit rule)
  have judged := leads.trans (leads_judged rule)
  cases hv : (plan.scope.apply unit rule).verdict with
  | unchanged =>
    simp only [hv] at judged
    simp only [Sequential.applyRule, hv]
    exact ⟨_, took, judged⟩
  | dropped =>
    simp only [hv] at judged
    simp only [Sequential.applyRule, hv]
    exact ⟨_, took, judged⟩
  | live =>
    simp only [hv] at judged
    simp only [Sequential.applyRule, hv]
    exact ⟨_, tracks_claim took _, judged.trans (leads_claimed took.calm took.accepting)⟩
  | word =>
    simp only [hv] at judged
    simp only [Sequential.applyRule, hv, Trail.tell_eq]
    -- both sides see the same count, and the listener was told the same until now
    have heard : (s.trail.took (plan.scope.apply unit rule)).heard =
        (t.trail.took (plan.scope.apply unit rule)).heard :=
      (Trail.silent_eq_iff.1 took.trail).2.2.2
    cases told : plan.listener t.outstanding (plan.scope.apply unit rule).step.output
        (t.trail.took (plan.scope.apply unit rule)).heard with
    | mk heard' answer =>
      rw [← h.outstanding, ← heard] at told
      have next := judged.trans (leads_told told)
      cases answer with
      | none => exact ⟨_, tracks_told took heard', next⟩
      | some fault =>
        exact ⟨⟨_, _, _, _, tracks_told took heard', next⟩, _, _, _, congrArg Prod.snd told⟩

/-- A worker begins with the text that comes next, finds no failure, and takes it up. -/
theorem leads_opened {text : Text} (h : s.Tracks (text :: rest) t) (leads : Leads plan p (idle s)) :
    ∃ s, s.Tracks rest { t with trail := t.trail.opened text } ∧
      Leads plan p (alone s ⟨text, plan.scope.grammar.rules, .applying⟩) := by
  obtain ⟨others, queue, begun⟩ := leads_begin plan h.queue
  have entered : Leads plan
      (alone { s with queue := others } ⟨text, plan.scope.grammar.rules, .entering⟩)
      (alone { s with queue := others } ⟨text, plan.scope.grammar.rules, .opening⟩) :=
    leads_of_move (by simp [Worker.move, h.calm])
  refine ⟨{ s with queue := others, trail := s.trail.opened text }, ?_,
    leads.trans (begun.trans (entered.trans (leads_of_move rfl)))⟩
  refine ⟨queue, h.accepting, h.calm, h.outstanding, h.visited, ?_⟩
  rw [Trail.silent_opened, Trail.silent_opened, h.trail]

/-- **One text** on both sides. -/
theorem leads_expand {text : Text} (h : s.Tracks (text :: rest) t) (leads : Leads plan p (idle s)) :
    Action.Ends
      (fun t => ∃ s, s.Tracks rest t ∧ Leads plan p (idle s))
      (Halts plan p)
      (Sequential.expand plan.scope plan.listener text t) := by
  have rules := Action.each_ends
    (P := fun todo t => ∃ s, s.Tracks rest t ∧ Leads plan p (alone s ⟨text, todo, .applying⟩))
    (Q := Halts plan p)
    (f := Sequential.applyRule plan.scope plan.listener text)
    (fun rule todo t ⟨s, h, leads⟩ => leads_applyRule h rule leads) (leads_opened h leads)
  refine Sequential.ends_expand rules ?_
  -- no rule is left, and the worker leaves
  rintro t' ⟨s', h', leads'⟩
  refine ⟨s'.countDown, ⟨h'.queue, h'.accepting, h'.calm, ?_, h'.visited, h'.trail⟩, ?_⟩
  · exact congrArg Outstanding.down h'.outstanding
  · exact leads'.trans ((leads_of_move rfl).trans (leads_of_leaving rfl))

/-- **One generation** on both sides. -/
theorem leads_generation {stage : List Text} (number : Nat) (h : s.Tracks stage { t with next := [] })
    (leads : Leads plan p (idle s)) :
    Action.Ends
      (fun t => ∃ s, s.Tracks [] t ∧ Leads plan p (idle s))
      (Halts plan p)
      (Sequential.generation plan.scope plan.listener number stage t) :=
  Action.each_ends (P := fun stage t => ∃ s, s.Tracks stage t ∧ Leads plan p (idle s))
    (fun _ _ _ ⟨_, h, leads⟩ => leads_expand h leads)
    ⟨s, ⟨h.queue, h.accepting, h.calm, h.outstanding, h.visited, h.trail⟩, leads⟩

/-- Where a run stands when the loop has ended: the queue is empty, or there is a worker that was answered
with a fault. -/
def Arrives (plan : Plan σ) (p : Pool σ) (o : Sequential.Outcome σ) : Prop :=
  ∃ s : Shared σ, s.trail.silent = o.state.trail.silent ∧ s.failure = none ∧
    match o.fault with
    | none => s.queue.toList = [] ∧ Leads plan p (idle s)
    | some fault => (∃ unit todo, Leads plan p (alone s ⟨unit, todo, .afterFault fault⟩)) ∧
        ∃ n word heard, (plan.listener n word heard).2 = some fault

/-- **The whole exploration** on both sides. -/
theorem arrives_explore {start : Text} {number : Nat} {stage : List Text}
    {within : ∀ t ∈ stage, t.Over (plan.scope.grammar.charactersFrom start)}
    (h : s.Tracks stage { t with next := [] }) (leads : Leads plan p (idle s)) :
    Arrives plan p (Sequential.explore plan.scope plan.listener start number stage within t) := by
  fun_induction Sequential.explore plan.scope plan.listener start number stage within t
    generalizing s with
  | case1 number within t => exact ⟨s, h.trail, h.calm, h.queue, leads⟩
  | case2 number stage within t hs t' fault hg =>
    have generation := leads_generation number h leads
    rw [hg] at generation
    obtain ⟨⟨s', unit, todo, rest, h', leads'⟩, answer⟩ := generation
    exact ⟨s', h'.trail, h'.calm, ⟨unit, todo, leads'⟩, answer⟩
  | case3 number stage within t hs t' hg ih =>
    have generation := leads_generation number h leads
    rw [hg] at generation
    -- what was collected meanwhile is all that the queue holds
    obtain ⟨s', h', leads'⟩ := generation
    refine ih ⟨?_, h'.accepting, h'.calm, h'.outstanding, h'.visited, h'.trail⟩ leads'
    simpa using h'.queue

end Loops

/-! ## The end of the run -/

section End

variable {plan : Plan σ} {trail : Trail σ} {s : Shared σ} {p : Pool σ}

/-- Once a failure was noted, the units that wait are begun and left. -/
theorem leads_drain (plan : Plan σ) {first : Fault} (noted : s.failure = some first) :
    ∃ s' : Shared σ, s'.queue.toList = [] ∧ s'.trail = s.trail ∧ s'.failure = some first ∧
      Leads plan (idle s) (idle s') := by
  generalize hq : s.queue.toList = units
  induction units generalizing s with
  | nil => exact ⟨s, hq, rfl, noted, .refl _⟩
  | cons text rest ih =>
    obtain ⟨others, queue, begun⟩ := leads_begin plan hq
    have turned : Leads plan
        (alone { s with queue := others } ⟨text, plan.scope.grammar.rules, .entering⟩)
        (alone { s with queue := others } ⟨text, plan.scope.grammar.rules, .leaving⟩) :=
      leads_of_move (by simp [Worker.move, noted])
    have left : Leads plan (idle s) (idle (Shared.countDown { s with queue := others })) :=
      begun.trans (turned.trans (leads_of_leaving rfl))
    obtain ⟨s', empty, same, noted', leads⟩ :=
      ih (s := Shared.countDown { s with queue := others }) noted queue
    exact ⟨s', empty, same, noted', left.trans leads⟩

/-- When no unit is left, the caller closes the pool and has its answer. -/
theorem leads_finish (h : Reachable plan trail (idle s)) (empty : s.queue.toList = []) :
    Leads plan (idle s) ⟨{ s with accepting := false }, [], .finished⟩ := by
  have settled : s.outstanding.isSettled = true := by
    have count := h.joined.count
    simp only [idle, units, unsubmitted, empty, Caller.unsubmitted] at count
    rw [Outstanding.isSettled_iff, count]
    simp
  have close : Leads plan (idle s) ⟨{ s with accepting := false }, [], .closing⟩ :=
    leads_of_move? (m := .caller) trivial (by simp [move?, idle, settled])
  refine close.trans (leads_of_move? (m := .caller) trivial ?_)
  simp [move?, Queue.isEmpty_iff.2 empty]

/-- The caller hands the start to the pool, and then waits. -/
theorem leads_start (plan : Plan σ) (trail : Trail σ) : ∃ s : Shared σ,
    s.Tracks [plan.start] (.initial plan.start trail) ∧
      Leads plan (initial plan.start trail) (idle s) := by
  have count : Leads plan (initial plan.start trail)
      { initial plan.start trail with
        shared := (initial plan.start trail).shared.countUp, caller := .submitting } :=
    leads_of_move? (m := .caller) trivial rfl
  refine ⟨_, ?_, count.trans (leads_of_move? (m := .caller) trivial rfl)⟩
  exact ⟨rfl, rfl, rfl, rfl, rfl, rfl⟩

/-- A single worker arrives where a sequential run over the same scope ends. -/
theorem arrives_run (plan : Plan σ) {trail trail' : Trail σ} (same : trail.silent = trail'.silent) :
    Arrives plan (initial plan.start trail)
      (Sequential.run plan.scope plan.listener plan.start trail') := by
  obtain ⟨s, tracks, started⟩ := leads_start plan trail
  have tracks' : s.Tracks [plan.start]
      { Sequential.State.initial plan.start trail' with next := [] } :=
    ⟨tracks.queue, tracks.accepting, tracks.calm, tracks.outstanding, tracks.visited,
      tracks.trail.trans same⟩
  exact arrives_explore tracks' started

/-- If the listener stays, a sequential run ends well or in a failure. -/
theorem isFailure_of_run {plan : Plan σ} (stays : plan.listener.Stays) {trail : Trail σ}
    {o : Sequential.Outcome σ} (run : Sequential.run plan.scope plan.listener plan.start trail = o)
    {fault : Fault} (failed : o.fault = some fault) : fault.isFailure = true := by
  obtain ⟨s, -, -, rest⟩ := arrives_run plan (rfl : trail.silent = trail.silent)
  rw [run, failed] at rest
  obtain ⟨-, n, word, heard, answer⟩ := rest
  exact stays n word heard fault answer

/-- **The run of a single worker** comes to an end, unless the listener asks the sequential run over the same
scope to leave. It has the trail of that run apart from the journal, and a failure exactly if that run ended
in a fault. -/
theorem exists_leads_finished (plan : Plan σ) {trail trail' : Trail σ}
    (same : trail.silent = trail'.silent) {o : Sequential.Outcome σ}
    (run : Sequential.run plan.scope plan.listener plan.start trail' = o)
    (failure : ∀ fault, o.fault = some fault → fault.isFailure = true) :
    ∃ p, Leads plan (initial plan.start trail) p ∧ p.caller = .finished ∧
      p.shared.trail.silent = o.state.trail.silent ∧
      match o.fault with
      | none => p.shared.failure = none
      | some fault => ∃ unit, p.shared.failure = some (fault.atUnit unit) := by
  have arrives : Arrives plan (initial plan.start trail) o := run ▸ arrives_run plan same
  obtain ⟨s', silent, calm, rest⟩ := arrives
  cases hf : o.fault with
  | none =>
    rw [hf] at rest
    obtain ⟨empty, leads⟩ := rest
    exact ⟨_, leads.trans (leads_finish (Reachable.initial.leads leads) empty), rfl, silent, calm⟩
  | some fault =>
    rw [hf] at rest
    obtain ⟨⟨unit, todo, leads⟩, -⟩ := rest
    rw [Point.afterFault_of_failure (failure fault hf)] at leads
    -- the failure is noted, the worker leaves, and the queue is drained
    have noted := (Shared.fail_of_calm calm unit fault).1
    have left : Leads plan (initial plan.start trail) (idle (s'.fail unit fault).countDown) :=
      leads.trans ((leads_of_move rfl).trans (leads_of_leaving rfl))
    obtain ⟨s'', empty, trail_eq, noted', drained⟩ :=
      leads_drain plan (s := (s'.fail unit fault).countDown) noted
    have leads := left.trans drained
    refine ⟨_, leads.trans (leads_finish (Reachable.initial.leads leads) empty), rfl, ?_, unit, noted'⟩
    change s''.trail.silent = _
    rw [trail_eq]
    exact silent

end End

section Whole

variable {plan : Plan σ} {trail : Trail σ} {p q : Pool σ}

/-- Every move of a schedule is paid for by the effort that was to be spent. -/
theorem length_add_effort_le (within : p.Within plan) {ms : List Move}
    (path : p.follow? plan ms = some q) : ms.length + q.effort plan ≤ p.effort plan := by
  induction ms generalizing p with
  | nil =>
    rw [follow?_nil, Option.some.injEq] at path
    rw [path, List.length_nil, Nat.zero_add]
  | cons m ms ih =>
    obtain ⟨x, hx, path⟩ := Option.bind_eq_some_iff.1 path
    obtain ⟨within', spent⟩ := within.move hx
    have rest := ih within' path
    rw [List.length_cons]
    omega

/-- A schedule has no more moves than there was effort to spend. -/
theorem length_le_effort (within : p.Within plan) {ms : List Move}
    (path : p.follow? plan ms = some q) : ms.length ≤ p.effort plan :=
  Nat.le_of_add_right_le (length_add_effort_le within path)

/-- **Whatever was done so far, the run comes to an end.** -/
theorem Leads.exists_finished (stays : plan.listener.Stays) (one : plan.workers = 1)
    (leads : Leads plan (initial plan.start trail) p) :
    ∃ f, Leads plan p f ∧ f.caller = .finished := by
  obtain ⟨f, ends, finished, -⟩ :=
    exists_leads_finished plan (rfl : trail.silent = trail.silent) rfl fun _ => isFailure_of_run stays rfl
  exact ⟨f, leads.finish one .initial ends finished, finished⟩

/-- A finished run leads nowhere. -/
theorem Leads.eq_of_finished (h : Reachable plan trail p) (finished : p.caller = .finished)
    (leads : Leads plan p q) : q = p := by
  obtain ⟨ms, -, path⟩ := leads
  exact h.joined.eq_of_follow? finished path

/-- There is one end only. -/
theorem Leads.eq_of_both_finished (one : plan.workers = 1)
    (leads : Leads plan (initial plan.start trail) p) (finished : p.caller = .finished)
    (leads' : Leads plan (initial plan.start trail) q) (finished' : q.caller = .finished) : p = q :=
  (leads.finish one .initial leads' finished').eq_of_finished (Reachable.initial.leads leads) finished
    |>.symm

/-- **At its end the run of a single worker is where the sequential run is.** -/
theorem Leads.tracks (stays : plan.listener.Stays) (one : plan.workers = 1) {trail' : Trail σ}
    (same : trail.silent = trail'.silent) (leads : Leads plan (initial plan.start trail) p)
    (finished : p.caller = .finished) {o : Sequential.Outcome σ}
    (run : Sequential.run plan.scope plan.listener plan.start trail' = o) :
    p.shared.trail.silent = o.state.trail.silent ∧
      match o.fault with
      | none => p.shared.failure = none
      | some fault => ∃ unit, p.shared.failure = some (fault.atUnit unit) := by
  obtain ⟨f, ends, f_finished, end_of_run⟩ :=
    exists_leads_finished plan same run fun _ => isFailure_of_run stays run
  obtain rfl : p = f := leads.eq_of_both_finished one finished ends f_finished
  exact end_of_run

/-- The move that is next takes the units in turn. -/
theorem inTurn_next (p : Pool σ) : p.next.InTurn := by
  unfold next
  split
  · trivial
  · split
    · rfl
    · trivial

/-- The run with the fixed choice of moves takes the units in turn. -/
theorem leads_runFrom (within : p.Within plan) : Leads plan p (runFrom plan p within) := by
  fun_induction runFrom plan p within with
  | case1 p within stuck => exact .refl p
  | case2 p within q hm ih => exact (leads_of_move? p.inTurn_next hm).trans ih

/-- **With one worker the run with the fixed choice of moves is the run.** -/
theorem Leads.eq_run (one : plan.workers = 1) (leads : Leads plan (initial plan.start trail) p)
    (finished : p.caller = .finished) : run plan trail = p :=
  (leads_runFrom (within_initial plan trail)).eq_of_both_finished one (finished_run plan trail) leads
    finished

end Whole

/-! ## The two strategies -/

/-- The trails with which runs begin differ in their journals only, if both are recorded or neither
is. -/
theorem silent_openTrail_eq {e e' : Explorer} (recording : e'.recording.isSome = e.recording.isSome)
    (start : Text) (journal journal' : Journal) (heard : σ) :
    (e.openTrail start journal heard).silent = (e'.openTrail start journal' heard).silent := by
  rw [Trail.silent_eq_iff]
  refine ⟨rfl, rfl, ?_, rfl⟩
  simp only [Explorer.openTrail]
  cases hr : e.recording <;> cases hr' : e'.recording <;> simp_all

/-- **One worker refines the sequential strategy.** Take a pool with a single worker that takes the units
in turn, in either mode, and any listener that stays. However far its run has come, it goes on to an end,
and there is a bound on the number of its moves. At the end the listener was called as a sequential run
over the same scope and from the same start calls it, with the same words in the same order, each under the
same count and with the same answer, the last call included if that was refused; and if both are recorded
the graphs are the same. If no call was refused both runs end with reports, in which the numbers are the
same; if one was, both end in its fault, which the pool wraps. The run with the fixed choice of moves is
this run. -/
theorem one_worker_agrees_with_sequential {e e' : Explorer} (scope : e'.scope = e.scope)
    (sequential : e'.strategy = .sequential) {crew : Crew} (one : crew.size = 1)
    (recording : e'.recording.isSome = e.recording.isSome) {listener : Listener σ}
    (stays : listener.Stays) (start : Text) (journal journal' : Journal) (heard : σ) :
    let plan := e.plan crew listener.overheard start
    let initial := Pool.initial start (e.openTrail start journal ([], heard))
    let ended' := e'.run listener.overheard start journal' ([], heard)
    (∀ p, Leads plan initial p → ∃ f, Leads plan p f ∧ f.caller = .finished) ∧
      (∀ ms p, initial.follow? plan ms = some p → ms.length ≤ initial.effort plan) ∧
      ∀ p, Leads plan initial p → p.caller = .finished →
        let ended := e.afterPool start p
        ended.heard = ended'.heard ∧
          ended.explorer.recording = ended'.explorer.recording ∧
          ((∀ call ∈ ended'.heard.1, call.fault = none) →
            ∃ report report', ended.result = .ok report ∧ ended'.result = .ok report' ∧
              report.words = report'.words ∧ report.expanded = report'.expanded ∧
              report.dropped = report'.dropped ∧ report.unchanged = report'.unchanged) ∧
          ((∃ call ∈ ended'.heard.1, call.fault ≠ none) →
            ∃ unit fault, ended.result = .error (fault.atUnit unit) ∧ ended'.result = .error fault) ∧
          (e.strategy = .concurrent crew →
            e.run listener.overheard start journal ([], heard) = ended) := by
  intro plan initial ended'
  have single : plan.workers = 1 := one
  have stays' : plan.listener.Stays := stays.overheard
  refine ⟨fun p leads => leads.exists_finished stays' single, ?_, fun p leads finished => ?_⟩
  · exact fun ms p path => length_le_effort (within_initial plan _) path
  intro ended
  have fresh := e.fresh_openTrail start journal heard
  have same := silent_openTrail_eq recording start journal journal' (([], heard) : Heard σ)
  have hended' : ended' = e'.afterSequential start (Sequential.run e'.scope listener.overheard start
      (e'.openTrail start journal' ([], heard))) := e'.run_of_sequential start sequential _ _ _
  rw [scope] at hended'
  generalize ho : Sequential.run e.scope listener.overheard start
    (e'.openTrail start journal' ([], heard)) = o at hended'
  obtain ⟨silent, failure⟩ := leads.tracks stays' single same finished ho
  obtain ⟨taken, tally, graph, told⟩ := Trail.silent_eq_iff.1 silent
  have heard_eq : ended.heard = ended'.heard := by
    rw [e.heard_afterPool, hended', e'.heard_afterSequential, told]
  have overheard : Reachable (e.plan crew listener start).overheard
      (e.openTrail start journal ([], heard)) p := Reachable.initial.leads leads
  have calm_iff : p.shared.failure = none ↔ ∀ call ∈ ended'.heard.1, call.fault = none := by
    rw [← heard_eq, e.heard_afterPool]
    exact overheard.failure_eq_none_iff_of_stays stays fresh.calls finished
  have result : ended.result = p.shared.failure.elim
      (.ok (Report.ofTrail e.strategy start p.shared.trail 0)) .error := e.result_afterPool start p
  have result' : ended'.result = o.fault.elim
      (.ok (Report.ofTrail e'.strategy start o.state.trail o.generations)) .error := by
    rw [hended', e'.result_afterSequential]
  refine ⟨heard_eq, ?_, fun answered => ?_, fun ⟨call, called, refused⟩ => ?_, fun concurrent => ?_⟩
  · rw [e.recording_afterPool, hended', e'.recording_afterSequential, graph]
  · have calm := calm_iff.2 answered
    cases hf : o.fault with
    | some fault =>
      rw [hf, calm] at failure
      obtain ⟨unit, absurdity⟩ := failure
      cases absurdity
    | none =>
      rw [calm] at result
      rw [hf] at result'
      refine ⟨_, _, result, result', ?_, ?_, ?_, ?_⟩ <;>
        simp only [Report.ofTrail, Trail.expanded, taken, tally]
  · cases hf : o.fault with
    | none =>
      rw [hf] at failure
      exact absurd (calm_iff.1 failure call called) refused
    | some fault =>
      rw [hf] at failure result'
      obtain ⟨unit, noted⟩ := failure
      rw [noted] at result
      exact ⟨unit, fault, result, result'⟩
  · simp only [Explorer.run, concurrent]
    exact congrArg (e.afterPool start) (leads.eq_run single finished)

/-- An explorer with one worker, in the relaxed mode, that records its runs. -/
def lone : Explorer where
  scope := .converging
  strategy := .concurrent { workers := some 1, atomic := false }
  recording := some .empty

/-- The run of `lone` from `S` when the second word is refused: the worker comes upon `T` and has it
queued, tells `a` twice and fails, and only begins with `T` afterwards. -/
def loneMoves : List Move :=
  [[.caller, .caller, .begin 0], List.replicate 27 (.work 0), [.begin 0, .work 0, .work 0],
    [.caller, .caller]].flatten

/-- Both times the count is two, as `T` waits. -/
theorem one_worker_agrees_with_sequential_converging :
    let listener := Listener.refusingNth 1 (.broken "full")
    let plan := lone.plan { workers := some 1, atomic := false } listener.overheard ['S']
    let p := after plan (lone.openTrail ['S'] {} ([], 0)) loneMoves
    let ended := { lone with strategy := .sequential }.run listener.overheard ['S'] {} ([], 0)
    p.caller = .finished ∧ p.shared.trail.taken = [['S']] ∧
      ended.heard.1 = [⟨['a'], 2, some (.broken "full")⟩, ⟨['a'], 2, none⟩] ∧
      ended.explorer.recording = p.shared.trail.graph.map .graph ∧
      ∃ fault, ended.result = .error fault := by
  intro listener plan p ended
  have leads : Leads plan (initial ['S'] (lone.openTrail ['S'] {} ([], 0))) p :=
    leads_after (by simp [loneMoves, Move.InTurn])
  have finished : p.caller = .finished := by decide
  have scope : { lone with strategy := .sequential }.scope = lone.scope := rfl
  have one : Crew.size { workers := some 1, atomic := false } = 1 := rfl
  have stays : listener.Stays := Listener.stays_refusingNth rfl
  have agrees := one_worker_agrees_with_sequential scope rfl one rfl stays ['S'] {} {} 0
  obtain ⟨heard, recording, -, refused, -⟩ := agrees.2.2 p leads finished
  -- what the sequential run told is read off the run of the worker
  have told : ended.heard.1 = [⟨['a'], 2, some (.broken "full")⟩, ⟨['a'], 2, none⟩] := by
    rw [← heard]
    decide
  obtain ⟨unit, fault, -, result⟩ := refused
    ⟨⟨['a'], 2, some (.broken "full")⟩, by rw [told]; exact List.mem_cons_self, by simp⟩
  refine ⟨finished, by decide, told, ?_, fault, result⟩
  rw [← recording, lone.recording_afterPool]

/-- The run of a single worker on `Scope.branching` from `S` when the listener asks to leave at the first
word: the worker leaves `S`, and then it takes up `T`. -/
def exitMoves : List Move :=
  [[.caller, .caller, .begin 0], List.replicate 16 (.work 0), [.begin 0], List.replicate 17 (.work 0),
    [.caller, .caller]].flatten

/-- **A listener that asks to leave stops the sequential strategy only.** The pool goes on to tell `b` and
ends with a report, though it has a single worker. And of a start that is no text a pool records nothing,
while the sequential strategy takes it up. -/
theorem one_worker_goes_on_after_exit :
    let listener := Listener.refusingNth 0 (.exit "stop")
    let e : Explorer :=
      { scope := .branching, strategy := .concurrent { workers := some 1 }, recording := some .empty }
    let e' : Explorer := { e with strategy := .sequential }
    let plan := e.plan { workers := some 1 } listener.overheard ['S']
    let trail := e.openTrail ['S'] {} ([], 0)
    let p := after plan trail exitMoves
    let ended := e.afterPool ['S'] p
    let ended' := e'.run listener.overheard ['S'] {} ([], 0)
    let refused := e.runSupplied listener (.foreign (.integer 5)) {} 0
    let taken_up := e'.runSupplied listener (.foreign (.integer 5)) {} 0
    (plan.workers = 1 ∧ Leads plan (initial ['S'] trail) p ∧ p.caller = .finished ∧
      ended.heard.1 = [⟨['b'], 1, none⟩, ⟨['a'], 2, some (.exit "stop")⟩] ∧
      (∃ report, ended.result = .ok report) ∧
      ended'.heard.1 = [⟨['a'], 2, some (.exit "stop")⟩] ∧ ended'.result = .error (.exit "stop") ∧
      ended.explorer.recording ≠ ended'.explorer.recording) ∧
    refused.explorer.recording = some .empty ∧
      taken_up.explorer.recording = some (.stray (.integer 5)) := by
  intro listener e e' plan trail p ended ended' refused taken_up
  have leads : Leads plan (initial ['S'] trail) p := leads_after (by simp [exitMoves, Move.InTurn])
  have finished : p.caller = .finished := by decide +kernel
  have told : ended.heard.1 = [⟨['b'], 1, none⟩, ⟨['a'], 2, some (.exit "stop")⟩] := by decide +kernel
  have report : ∃ report, ended.result = .ok report := by
    have well : p.shared.failure = none := by decide +kernel
    exact ⟨_, (e.result_afterPool ['S'] p).trans (by rw [well]; rfl)⟩
  have told' : ended'.heard.1 = [⟨['a'], 2, some (.exit "stop")⟩] := by decide +kernel
  have fault : (Sequential.run e'.scope listener.overheard ['S']
      (e'.openTrail ['S'] {} ([], 0))).fault = some (.exit "stop") := by decide +kernel
  have result : ended'.result = .error (.exit "stop") :=
    (e'.result_afterSequential ['S'] _).trans (by rw [fault]; rfl)
  have recordings : ended.explorer.recording ≠ ended'.explorer.recording := by decide +kernel
  exact ⟨⟨rfl, leads, finished, told, report, told', result, recordings⟩, rfl, rfl⟩

end Pool

end SemiThue.Exploration
