/-
The search from both ends finds a shortest path.

A side that has made `k` rounds knows exactly the texts that are at most `k` steps from its origin, and its
fringe are those that are `k` steps from it and no fewer (`Side.Explored`). A round looks at every step
that leaves the fringe. If none of them meets the other side, the side has made one round more, and what it
knows is still apart from what the other side knows.

That the sides are apart is what makes the first meeting a good one. Let them have made `k` and `l` rounds.
On a path of `k + l` steps or fewer some text is at most `k` steps from its beginning and at most `l` from
its end, and would be known to both sides; so every path has more steps. When the next round meets the
other side, the way back to one origin has at most one step more than the rounds made, and that to the
other origin no more: a path of at most `k + l + 1` steps, wherever in the round it was found. If a fringe
is empty instead, its side knows everything that can be reached, and that is not the other origin.
-/
import SemiThue.Derivation.Path

set_option autoImplicit false

namespace SemiThue.Derivation

/-! ## Paths -/

/-- The steps lead from one text to another: each begins where the one before it ended. -/
def Linked : Text → List Step → Text → Prop
  | s, [], t => s = t
  | s, e :: steps, t => e.source = s ∧ Linked e.output steps t

@[simp] theorem linked_nil {s t : Text} : Linked s [] t ↔ s = t := Iff.rfl

@[simp] theorem linked_cons {s t : Text} {e : Step} {steps : List Step} :
    Linked s (e :: steps) t ↔ e.source = s ∧ Linked e.output steps t := Iff.rfl

theorem linked_append {s t : Text} {steps steps' : List Step} :
    Linked s (steps ++ steps') t ↔ ∃ u, Linked s steps u ∧ Linked u steps' t := by
  induction steps generalizing s with
  | nil => simp
  | cons e steps ih => simp only [List.cons_append, linked_cons, ih, and_assoc, exists_and_left]

/-- **A path**: linked steps, all of them among the edges. -/
def Path (edges : List Step) (s : Text) (steps : List Step) (t : Text) : Prop :=
  Linked s steps t ∧ ∀ e ∈ steps, e ∈ edges

/-- **A shortest path**: no other path between the same texts has fewer steps. -/
def Shortest (edges : List Step) (s : Text) (steps : List Step) (t : Text) : Prop :=
  Path edges s steps t ∧ ∀ steps', Path edges s steps' t → steps.length ≤ steps'.length

theorem Path.append {edges steps steps' : List Step} {s t u : Text} (h : Path edges s steps t)
    (h' : Path edges t steps' u) : Path edges s (steps ++ steps') u := by
  refine ⟨linked_append.2 ⟨t, h.1, h'.1⟩, fun e he => ?_⟩
  exact (List.mem_append.1 he).elim (h.2 e) (h'.2 e)

/-- A path can be cut anywhere. -/
theorem Path.cut {edges steps : List Step} {s t : Text} (h : Path edges s steps t) (i : Nat) :
    ∃ u, Path edges s (steps.take i) u ∧ Path edges u (steps.drop i) t := by
  have linked := h.1
  rw [← List.take_append_drop i steps, linked_append] at linked
  obtain ⟨u, before, after⟩ := linked
  exact ⟨u, ⟨before, fun e he => h.2 e (List.mem_of_mem_take he)⟩,
    ⟨after, fun e he => h.2 e (List.mem_of_mem_drop he)⟩⟩

theorem Path.tail {edges steps : List Step} {s t : Text} {e : Step} (h : Path edges s (e :: steps) t) :
    Path edges e.output steps t :=
  ⟨h.1.2, fun e' he => h.2 e' (List.mem_cons_of_mem _ he)⟩

/-- A path that leads elsewhere ends with an edge. -/
theorem Path.exists_edge {edges steps : List Step} {s t : Text} (h : Path edges s steps t)
    (away : s ≠ t) : ∃ e ∈ edges, e.output = t := by
  induction steps generalizing s with
  | nil => exact absurd h.1 away
  | cons e steps ih =>
    by_cases arrived : e.output = t
    · exact ⟨e, h.2 e List.mem_cons_self, arrived⟩
    · exact ih h.tail arrived

/-- Behind any step but the last a path goes on, and is shorter from there. -/
theorem Path.exists_behind {edges steps : List Step} {s t : Text} {e : Step} (h : Path edges s steps t)
    (he : e ∈ steps.dropLast) :
    ∃ next rest, Path edges e.output (next :: rest) t ∧ (next :: rest).length < steps.length := by
  induction steps generalizing s with
  | nil => simp at he
  | cons first steps ih =>
    cases steps with
    | nil => simp at he
    | cons second steps =>
      rcases List.mem_cons.1 he with rfl | he
      · exact ⟨second, steps, h.tail, Nat.lt_succ_self _⟩
      · obtain ⟨next, rest, path, shorter⟩ := ih h.tail he
        exact ⟨next, rest, path, Nat.lt_succ_of_lt shorter⟩

/-! ## Walks

A walk is followed from the origin of a side outwards, so it is a path in the direction of that side. -/

/-- So many edges, followed in a direction, lead from the origin to the text. -/
inductive Direction.Walk (d : Direction) (edges : List Step) (origin : Text) : Nat → Text → Prop where
  /-- No edge leads to the origin. -/
  | start : Walk d edges origin 0 origin
  /-- One edge more leads from where it comes from to where it goes. -/
  | step {n : Nat} {e : Step} : Walk d edges origin n (d.origin e) → e ∈ edges →
      Walk d edges origin (n + 1) (d.goal e)

namespace Direction

variable {edges steps : List Step} {s t : Text}

theorem walk_forwards_of_path {n : Nat} (walk : forwards.Walk edges s n t) {u : Text}
    (h : Path edges t steps u) : forwards.Walk edges s (n + steps.length) u := by
  induction steps generalizing n t with
  | nil =>
    obtain rfl := linked_nil.1 h.1
    exact walk
  | cons e steps ih =>
    obtain ⟨⟨rfl, linked⟩, mem⟩ := h
    have rest := ih (walk.step (mem e List.mem_cons_self))
      ⟨linked, fun e he => mem e (List.mem_cons_of_mem _ he)⟩
    rw [List.length_cons, Nat.add_comm steps.length 1, ← Nat.add_assoc]
    exact rest

theorem walk_backwards_of_path (h : Path edges s steps t) : backwards.Walk edges t steps.length s := by
  induction steps generalizing s with
  | nil =>
    obtain rfl := linked_nil.1 h.1
    exact .start
  | cons e steps ih =>
    obtain ⟨⟨rfl, linked⟩, mem⟩ := h
    exact .step (ih ⟨linked, fun e he => mem e (List.mem_cons_of_mem _ he)⟩) (mem e List.mem_cons_self)

/-- A way back, as it is kept by a side: it is a path when read in the direction of the edges. -/
def Leads (d : Direction) (edges : List Step) (origin : Text) (way : List Step) (t : Text) : Prop :=
  match d with
  | forwards => Path edges origin way.reverse t
  | backwards => Path edges t way origin

theorem leads_nil (d : Direction) (edges : List Step) (origin : Text) : d.Leads edges origin [] origin := by
  cases d <;> exact ⟨rfl, by simp⟩

theorem Leads.cons {d : Direction} {origin : Text} {way : List Step} {e : Step} (mem : e ∈ edges)
    (h : d.Leads edges origin way (d.origin e)) : d.Leads edges origin (e :: way) (d.goal e) := by
  cases d with
  | forwards =>
    rw [Leads, List.reverse_cons]
    refine Path.append h ⟨⟨rfl, rfl⟩, fun e' he => ?_⟩
    rw [List.mem_singleton.1 he]
    exact mem
  | backwards => exact ⟨⟨rfl, h.1⟩, List.forall_mem_cons.2 ⟨mem, h.2⟩⟩

/-- Where one step more leads. -/
theorem exists_goal_or_eq_iff {d : Direction} {Done : Step → Prop} {e : Step} :
    (∃ e', (Done e' ∨ e' = e) ∧ d.goal e' = t) ↔ (∃ e', Done e' ∧ d.goal e' = t) ∨ t = d.goal e := by
  simp only [or_and_right, exists_or, exists_eq_left, eq_comm (a := t)]

end Direction

/-! ## Sides -/

namespace Side

theorem reach_of_knows {b : Side} {e : Step} (known : b.knows (b.direction.goal e) = true) :
    b.reach e = b := by
  simp [reach, known]

theorem reach_of_not_knows {b : Side} {e : Step} (new : b.knows (b.direction.goal e) = false) :
    b.reach e = { b with
      reached := e :: b.reached
      known := b.known.insert (b.direction.goal e) ()
      fringe := b.direction.goal e :: b.fringe } := by
  simp [reach, new]

/-- The way back from a text is one, and has at most so many steps. -/
def Traced (edges : List Step) (origin : Text) (depth : Nat) (a : Side) (t : Text) : Prop :=
  a.direction.Leads edges origin (wayBack a.direction a.reached t) t ∧
    (wayBack a.direction a.reached t).length ≤ depth

/-- **A side that has made so many rounds.** -/
structure Explored (edges : List Step) (origin : Text) (depth : Nat) (a : Side) : Prop where
  /-- The steps of the side are the edges. -/
  stepsFrom : ∀ t e, e ∈ a.stepsFrom t ↔ e ∈ edges ∧ a.direction.origin e = t
  /-- It knows what that many edges or fewer lead to. -/
  knows_iff : ∀ t, a.knows t = true ↔ ∃ n ≤ depth, a.direction.Walk edges origin n t
  /-- Its fringe is what that many edges lead to, but no fewer. -/
  fringe_iff : ∀ t, t ∈ a.fringe ↔
    a.direction.Walk edges origin depth t ∧ ∀ n < depth, ¬a.direction.Walk edges origin n t
  /-- It has a way back from all that it knows. -/
  traced : ∀ t, a.knows t = true → a.Traced edges origin depth t

/-- **A side in the middle of a round**: what it was when it gave up its fringe, which steps it has
followed since, and what it is now. -/
structure Underway (edges : List Step) (origin : Text) (depth : Nat) (a : Side) (Done : Step → Prop)
    (b : Side) : Prop where
  /-- It follows the same steps in the same direction. -/
  direction : b.direction = a.direction
  /-- Likewise. -/
  links : b.links = a.links
  /-- It has come to know where the steps lead that it has followed. -/
  knows_iff : ∀ t, b.knows t = true ↔ a.knows t = true ∨ ∃ e, Done e ∧ a.direction.goal e = t
  /-- Of that, what it had not known is its new fringe. -/
  fringe_iff : ∀ t, t ∈ b.fringe ↔ a.knows t = false ∧ ∃ e, Done e ∧ a.direction.goal e = t
  /-- The ways back that it had are as they were. -/
  old : ∀ t, a.knows t = true → wayBack a.direction b.reached t = wayBack a.direction a.reached t
  /-- It has a way back from all that it knows. -/
  traced : ∀ t, b.knows t = true → b.Traced edges origin (depth + 1) t

section Round

variable {edges : List Step} {origin : Text} {depth : Nat} {a b : Side} {Done : Step → Prop}

/-- A side that has just given up its fringe. -/
theorem Explored.underway (h : a.Explored edges origin depth) :
    Underway edges origin depth a (fun _ => False) { a with fringe := [] } where
  direction := rfl
  links := rfl
  knows_iff t := by simp [knows]
  fringe_iff t := by simp
  old _ _ := rfl
  traced t known := ⟨(h.traced t known).1, Nat.le_succ_of_le (h.traced t known).2⟩

theorem Underway.congr {Done' : Step → Prop} (h : Underway edges origin depth a Done b)
    (same : ∀ e, Done e ↔ Done' e) : Underway edges origin depth a Done' b where
  direction := h.direction
  links := h.links
  knows_iff t := by simp only [← same]; exact h.knows_iff t
  fringe_iff t := by simp only [← same]; exact h.fringe_iff t
  old := h.old
  traced := h.traced

/-- A step to something that is known by now: nothing changes. -/
theorem Underway.reach_known (h : Underway edges origin depth a Done b) {e : Step}
    (known : b.knows (a.direction.goal e) = true) :
    Underway edges origin depth a (fun e' => Done e' ∨ e' = e) b := by
  have before := (h.knows_iff _).1 known
  refine ⟨h.direction, h.links, fun t => ?_, fun t => ?_, h.old, h.traced⟩
  · rw [h.knows_iff, Direction.exists_goal_or_eq_iff, ← or_assoc]
    refine (or_iff_left_of_imp ?_).symm
    rintro rfl
    exact before
  · rw [h.fringe_iff, Direction.exists_goal_or_eq_iff]
    refine and_congr_right fun new => (or_iff_left_of_imp ?_).symm
    rintro rfl
    rw [new] at before
    exact before.resolve_left Bool.false_ne_true

/-- A step to something new, from something that the side knew before the round. -/
theorem Underway.reach_new (h : Underway edges origin depth a Done b)
    (explored : a.Explored edges origin depth) {e : Step} (mem : e ∈ edges)
    (known : a.knows (a.direction.origin e) = true) (new : b.knows (a.direction.goal e) = false) :
    Underway edges origin depth a (fun e' => Done e' ∨ e' = e) (b.reach e) := by
  have same := reach_of_not_knows (h.direction ▸ new)
  rw [h.direction] at same
  have knows : ∀ t, (b.reach e).knows t = true ↔ b.knows t = true ∨ t = a.direction.goal e := by
    intro t
    rw [same, Side.knows, Text.Table.contains_insert, Bool.or_eq_true, beq_iff_eq, or_comm]
    rfl
  have known_before : ∀ t, a.knows t = true → b.knows t = true := fun t ht =>
    (h.knows_iff t).2 (.inl ht)
  have fresh : a.knows (a.direction.goal e) = false := by
    rw [← Bool.not_eq_true] at new ⊢
    exact mt (known_before _) new
  have direction : (b.reach e).direction = a.direction := by rw [direction_reach]; exact h.direction
  have reached : (b.reach e).reached = e :: b.reached := by rw [same]
  -- ways back from what was known do not begin with this step
  have old : ∀ t, b.knows t = true →
      wayBack a.direction (e :: b.reached) t = wayBack a.direction b.reached t := by
    intro t ht
    refine if_neg ?_
    rintro rfl
    rw [new] at ht
    cases ht
  refine ⟨direction, by rw [links_reach]; exact h.links, fun t => ?_, fun t => ?_, fun t ht => ?_,
    fun t ht => ?_⟩
  · rw [knows, h.knows_iff, Direction.exists_goal_or_eq_iff, or_assoc]
  · rw [same, List.mem_cons, h.fringe_iff, Direction.exists_goal_or_eq_iff, and_or_left, or_comm]
    refine or_congr_right (and_iff_right_of_imp ?_).symm
    rintro rfl
    exact fresh
  · rw [reached, old t (known_before t ht), h.old t ht]
  · unfold Traced
    rw [direction, reached]
    rcases (knows t).1 ht with ht | rfl
    · have traced := h.traced t ht
      unfold Traced at traced
      rw [h.direction] at traced
      rw [old t ht]
      exact traced
    · -- the way back goes over the step to something that was known before the round
      have way : wayBack a.direction (e :: b.reached) (a.direction.goal e) =
          e :: wayBack a.direction a.reached (a.direction.origin e) := by
        rw [← h.old _ known]
        exact if_pos rfl
      obtain ⟨leads, short⟩ := explored.traced _ known
      rw [way]
      exact ⟨leads.cons mem, Nat.succ_le_succ short⟩

/-- **One step of a round**: an edge from something that the side knew is followed. -/
theorem Underway.reach (h : Underway edges origin depth a Done b)
    (explored : a.Explored edges origin depth) {e : Step} (mem : e ∈ edges)
    (known : a.knows (a.direction.origin e) = true) :
    Underway edges origin depth a (fun e' => Done e' ∨ e' = e) (b.reach e) := by
  cases goal : b.knows (a.direction.goal e) with
  | true =>
    rw [reach_of_knows (h.direction ▸ goal)]
    exact h.reach_known goal
  | false => exact h.reach_new explored mem known goal

/-- What a side and the other one have to show when they meet: both know the text, and there is a way back
of one step more than the rounds that were made. -/
def Met (edges : List Step) (origin : Text) (depth : Nat) (other a b : Side) (meeting : Text) : Prop :=
  b.direction = a.direction ∧ other.knows meeting = true ∧ b.Traced edges origin (depth + 1) meeting

/-- **Following steps**: they are all followed and none met the other side, or one did. -/
theorem Underway.follow (h : Underway edges origin depth a Done b)
    (explored : a.Explored edges origin depth) (other : Side) (steps : List Step)
    (from_known : ∀ e ∈ steps, e ∈ edges ∧ a.knows (a.direction.origin e) = true) :
    match Side.follow other steps b with
    | (b', none) => Underway edges origin depth a (fun e => Done e ∨ e ∈ steps) b' ∧
        ∀ e ∈ steps, other.knows (a.direction.goal e) = false
    | (b', some meeting) => Met edges origin depth other a b' meeting := by
  induction steps generalizing b Done with
  | nil => exact ⟨h.congr fun e => by simp, by simp⟩
  | cons e steps ih =>
    obtain ⟨mem, known⟩ := from_known e List.mem_cons_self
    have next := h.reach explored mem known
    have goal : (b.reach e).direction.goal e = a.direction.goal e := by rw [next.direction]
    unfold Side.follow
    dsimp only
    rw [goal]
    cases meets : other.knows (a.direction.goal e) with
    | true =>
      rw [if_pos rfl]
      exact ⟨next.direction, meets, next.traced _ ((next.knows_iff _).2 (.inr ⟨e, .inr rfl, rfl⟩))⟩
    | false =>
      rw [if_neg Bool.false_ne_true]
      have rest := ih next fun e he => from_known e (List.mem_cons_of_mem _ he)
      split at rest
      · refine ⟨rest.1.congr fun e' => ?_, List.forall_mem_cons.2 ⟨meets, rest.2⟩⟩
        rw [List.mem_cons, or_assoc]
      · exact rest

/-- **Following the steps from several texts.** -/
theorem Underway.followAll (h : Underway edges origin depth a Done b)
    (explored : a.Explored edges origin depth) (other : Side) {sources : List Text}
    (known : ∀ t ∈ sources, a.knows t = true) :
    match Side.followAll other sources b with
    | (b', none) =>
        Underway edges origin depth a
          (fun e => Done e ∨ e ∈ edges ∧ a.direction.origin e ∈ sources) b' ∧
        ∀ e ∈ edges, a.direction.origin e ∈ sources → other.knows (a.direction.goal e) = false
    | (b', some meeting) => Met edges origin depth other a b' meeting := by
  induction sources generalizing b Done with
  | nil => exact ⟨h.congr fun e => by simp, by simp⟩
  | cons source sources ih =>
    have leaves : ∀ e, e ∈ b.stepsFrom source ↔ e ∈ edges ∧ a.direction.origin e = source := by
      intro e
      rw [← explored.stepsFrom, Side.stepsFrom, h.links, ← Side.stepsFrom]
    have first := h.follow explored other (b.stepsFrom source) fun e he => by
      obtain ⟨mem, rfl⟩ := (leaves e).1 he
      exact ⟨mem, known _ List.mem_cons_self⟩
    unfold Side.followAll
    split at first <;> rename_i heq <;> rw [heq]
    · have rest := ih first.1 fun t ht => known t (List.mem_cons_of_mem _ ht)
      dsimp only
      split at rest
      · refine ⟨rest.1.congr fun e => ?_, fun e mem from_source => ?_⟩
        · rw [leaves, List.mem_cons, and_or_left, or_assoc]
        · rcases List.mem_cons.1 from_source with same | later
          · exact first.2 e ((leaves e).2 ⟨mem, same⟩)
          · exact rest.2 e mem later
      · exact rest
    · exact first

/-- A text that one edge more leads to is known, or that edge leaves the fringe. -/
theorem Explored.knows_or_origin_mem (h : a.Explored edges origin depth) {t : Text}
    (walk : a.direction.Walk edges origin (depth + 1) t) :
    a.knows t = true ∨
      ∃ e, (e ∈ edges ∧ a.direction.origin e ∈ a.fringe) ∧ a.direction.goal e = t := by
  cases walk with
  | @step _ e walk mem =>
    by_cases shorter : ∃ n < depth, a.direction.Walk edges origin n (a.direction.origin e)
    · obtain ⟨n, less, walk⟩ := shorter
      exact .inl ((h.knows_iff _).2 ⟨n + 1, less, walk.step mem⟩)
    · refine .inr ⟨e, ⟨mem, (h.fringe_iff _).2 ⟨walk, fun n less walk => ?_⟩⟩, rfl⟩
      exact shorter ⟨n, less, walk⟩

/-- **At the end of a round** the side has followed every edge that left its fringe, and so made one round
more. -/
theorem Underway.explored (h : a.Explored edges origin depth)
    (all : Underway edges origin depth a (fun e => e ∈ edges ∧ a.direction.origin e ∈ a.fringe) b) :
    b.Explored edges origin (depth + 1) := by
  -- an edge that leaves the fringe leads one step further
  have further : ∀ t, (∃ e, (e ∈ edges ∧ a.direction.origin e ∈ a.fringe) ∧ a.direction.goal e = t) →
      a.direction.Walk edges origin (depth + 1) t := by
    rintro _ ⟨e, ⟨mem, from_fringe⟩, rfl⟩
    exact ((h.fringe_iff _).1 from_fringe).1.step mem
  refine ⟨fun t e => ?_, fun t => ?_, fun t => ?_, all.traced⟩
  · rw [all.direction, ← h.stepsFrom, Side.stepsFrom, all.links, ← Side.stepsFrom]
  · rw [all.direction, all.knows_iff]
    constructor
    · rintro (old | new)
      · obtain ⟨n, le, walk⟩ := (h.knows_iff t).1 old
        exact ⟨n, Nat.le_succ_of_le le, walk⟩
      · exact ⟨depth + 1, Nat.le_refl _, further t new⟩
    · rintro ⟨n, le, walk⟩
      rcases Nat.le_succ_iff.1 le with le | rfl
      · exact .inl ((h.knows_iff t).2 ⟨n, le, walk⟩)
      · exact h.knows_or_origin_mem walk
  · rw [all.direction, all.fringe_iff]
    constructor
    · rintro ⟨unknown, new⟩
      refine ⟨further t new, fun n less walk => ?_⟩
      rw [(h.knows_iff t).2 ⟨n, Nat.le_of_lt_succ less, walk⟩] at unknown
      cases unknown
    · rintro ⟨walk, none_shorter⟩
      have unknown : ¬a.knows t = true := fun known => by
        obtain ⟨n, le, walk⟩ := (h.knows_iff t).1 known
        exact none_shorter n (Nat.lt_succ_of_le le) walk
      exact ⟨Bool.eq_false_iff.2 unknown, (h.knows_or_origin_mem walk).resolve_left unknown⟩

/-- **One round**: the side has made one round more and is still apart from what the other one knows, or
the sides have met. -/
theorem Explored.round (h : a.Explored edges origin depth) (other : Side) :
    match Side.round other a with
    | (b, none) => b.Explored edges origin (depth + 1) ∧ b.direction = a.direction ∧
        ∀ t, b.knows t = true → a.knows t = true ∨ other.knows t = false
    | (b, some meeting) => Met edges origin depth other a b meeting := by
  have known : ∀ t ∈ a.fringe.reverse, a.knows t = true := by
    intro t ht
    exact (h.knows_iff t).2 ⟨depth, Nat.le_refl _, ((h.fringe_iff t).1 (List.mem_reverse.1 ht)).1⟩
  have followed := h.underway.followAll h other known
  unfold Side.round
  split at followed
  · rename_i b heq
    obtain ⟨underway, clear⟩ := followed
    have all : Underway edges origin depth a (fun e => e ∈ edges ∧ a.direction.origin e ∈ a.fringe) b :=
      underway.congr fun e => by rw [false_or, List.mem_reverse]
    refine ⟨all.explored h, all.direction, fun t ht => ?_⟩
    refine ((all.knows_iff t).1 ht).imp_right ?_
    rintro ⟨e, ⟨mem, from_fringe⟩, rfl⟩
    exact clear e mem (List.mem_reverse.2 from_fringe)
  · exact followed

theorem knows_start {direction : Direction} {links : Links} {origin t : Text} :
    (start direction links origin).knows t = true ↔ t = origin := by
  rw [knows, start, Text.Table.contains_insert, Bool.or_eq_true, beq_iff_eq]
  exact or_iff_left (by simp)

/-- A side that has reached its origin only has made no round. -/
theorem explored_start {direction : Direction} {links : Links} (origin : Text)
    (under : ∀ t, links.under t = edges.filter fun e => direction.origin e == t) :
    (start direction links origin).Explored edges origin 0 where
  stepsFrom t e := by
    simp [stepsFrom, start, under]
  knows_iff t := by
    rw [knows_start]
    constructor
    · rintro rfl
      exact ⟨0, Nat.le_refl 0, .start⟩
    · rintro ⟨n, le, walk⟩
      obtain rfl := Nat.le_zero.1 le
      cases walk
      rfl
  fringe_iff t := by
    have fringe : t ∈ (start direction links origin).fringe ↔ t = origin := List.mem_singleton
    rw [fringe]
    constructor
    · rintro rfl
      exact ⟨.start, by simp⟩
    · rintro ⟨walk, -⟩
      cases walk
      rfl
  traced t known := by
    obtain rfl := knows_start.1 known
    exact ⟨direction.leads_nil edges t, Nat.le_refl 0⟩

/-- **A side without a fringe knows everything** that can be reached. -/
theorem Explored.knows_of_walk (h : a.Explored edges origin depth) (empty : a.fringe = []) {n : Nat}
    {t : Text} (walk : a.direction.Walk edges origin n t) : a.knows t = true := by
  induction walk with
  | start => exact (h.knows_iff _).2 ⟨0, Nat.zero_le _, .start⟩
  | @step n e walk mem ih =>
    obtain ⟨k, le, walk⟩ := (h.knows_iff _).1 ih
    rcases Nat.lt_or_eq_of_le le with less | rfl
    · exact (h.knows_iff _).2 ⟨k + 1, less, walk.step mem⟩
    · -- one edge more would have to leave the fringe
      refine (h.knows_or_origin_mem (walk.step mem)).resolve_right ?_
      rw [empty]
      rintro ⟨_, ⟨-, absurdity⟩, -⟩
      exact List.not_mem_nil absurdity

end Round

end Side

/-! ## The search -/

section Search

variable {edges : List Step} {root target : Text}

/-- **Two sides that are apart**, one from each end. -/
structure Apart (edges : List Step) (root target : Text) (near far : Side) (k l : Nat) : Prop where
  /-- The near side has made so many rounds. -/
  near_explored : near.Explored edges root k
  /-- The far side has made so many rounds. -/
  far_explored : far.Explored edges target l
  /-- The near side goes forwards. -/
  forwards : near.direction = .forwards
  /-- The far side goes backwards. -/
  backwards : far.direction = .backwards
  /-- No text is known to both. -/
  apart : ∀ t, near.knows t = true → far.knows t = false

/-- **Every path is longer than the rounds made on both sides.** -/
theorem Apart.lt_length {near far : Side} {k l : Nat} (h : Apart edges root target near far k l)
    {steps : List Step} (path : Path edges root steps target) : k + l < steps.length := by
  refine Nat.lt_of_not_le fun short => ?_
  -- some text on the path is within reach of both sides
  obtain ⟨u, before, after⟩ := path.cut k
  have from_root : near.direction.Walk edges root (0 + (steps.take k).length) u := by
    rw [h.forwards]
    exact Direction.walk_forwards_of_path .start before
  have to_target : far.direction.Walk edges target (steps.drop k).length u := by
    rw [h.backwards]
    exact Direction.walk_backwards_of_path after
  have near_knows := (h.near_explored.knows_iff u).2 ⟨_, by rw [List.length_take]; omega, from_root⟩
  have far_knows := (h.far_explored.knows_iff u).2 ⟨_, by rw [List.length_drop]; omega, to_target⟩
  rw [h.apart u near_knows] at far_knows
  cases far_knows

/-- If a fringe is empty there is no path. -/
theorem Apart.not_path {near far : Side} {k l : Nat} (h : Apart edges root target near far k l)
    (empty : near.fringe = [] ∨ far.fringe = []) (steps : List Step) :
    ¬Path edges root steps target := by
  intro path
  have far_knows : far.knows target = true := (h.far_explored.knows_iff _).2 ⟨0, Nat.zero_le _, .start⟩
  have near_knows : near.knows root = true := (h.near_explored.knows_iff _).2 ⟨0, Nat.zero_le _, .start⟩
  rcases empty with empty | empty
  · have walk := Direction.walk_forwards_of_path .start path
    rw [← h.forwards] at walk
    rw [h.apart _ (h.near_explored.knows_of_walk empty walk)] at far_knows
    cases far_knows
  · have walk := Direction.walk_backwards_of_path path
    rw [← h.backwards] at walk
    have far_knows_root := h.far_explored.knows_of_walk empty walk
    rw [h.apart _ near_knows] at far_knows_root
    cases far_knows_root

/-- Ways back from the same text to both ends make a path. -/
theorem shortest_of_ways {near far : Side} {k l : Nat} {meeting : Text}
    (forwards : near.direction = .forwards) (backwards : far.direction = .backwards)
    (near_way : near.Traced edges root k meeting) (far_way : far.Traced edges target l meeting)
    (longer : ∀ steps, Path edges root steps target → k + l ≤ steps.length) :
    Shortest edges root
      ((Side.wayBack .forwards near.reached meeting).reverse ++
        Side.wayBack .backwards far.reached meeting) target := by
  unfold Side.Traced at near_way far_way
  rw [forwards] at near_way
  rw [backwards] at far_way
  refine ⟨near_way.1.append far_way.1, fun steps path => ?_⟩
  have := longer steps path
  rw [List.length_append, List.length_reverse]
  omega

/-- **What the search comes to**: without a meeting there is no path, and with one the ways back make a
shortest path. -/
theorem Apart.search {near far : Side} {k l : Nat} (h : Apart edges root target near far k l) :
    match Derivation.search near far with
    | none => ∀ steps, ¬Path edges root steps target
    | some (near', far', meeting) => Shortest edges root
        ((Side.wayBack .forwards near'.reached meeting).reverse ++
          Side.wayBack .backwards far'.reached meeting) target := by
  fun_induction Derivation.search near far generalizing k l with
  | case1 near far empty => exact h.not_path empty
  | case2 near far some_fringe smaller near' meeting heq =>
    have round := h.near_explored.round far
    rw [heq] at round
    obtain ⟨direction, known, traced⟩ := round
    refine shortest_of_ways (direction.trans h.forwards) h.backwards traced (h.far_explored.traced _ known) ?_
    intro steps path
    have := h.lt_length path
    omega
  | case3 near far some_fringe smaller near' heq ih =>
    have round := h.near_explored.round far
    rw [heq] at round
    obtain ⟨explored, direction, known⟩ := round
    refine ih ⟨explored, h.far_explored, direction.trans h.forwards, h.backwards, fun t ht => ?_⟩
    exact (known t ht).elim (h.apart t) id
  | case4 near far some_fringe larger far' meeting heq =>
    have round := h.far_explored.round near
    rw [heq] at round
    obtain ⟨direction, known, traced⟩ := round
    refine shortest_of_ways h.forwards (direction.trans h.backwards) (h.near_explored.traced _ known) traced ?_
    intro steps path
    have := h.lt_length path
    omega
  | case5 near far some_fringe larger far' heq ih =>
    have round := h.far_explored.round near
    rw [heq] at round
    obtain ⟨explored, direction, known⟩ := round
    refine ih ⟨h.near_explored, explored, h.forwards, direction.trans h.backwards, fun t ht => ?_⟩
    -- what the far side has come to know is unknown to the near side
    cases hf : far'.knows t with
    | false => rfl
    | true =>
      rcases known t hf with old | unknown
      · rw [h.apart t ht] at old
        cases old
      · rw [ht] at unknown
        cases unknown

/-- **A path is found if there is one, and it is a shortest one.** -/
theorem path?_spec {leaving arriving : Links}
    (leaving_eq : ∀ t, leaving.under t = edges.filter fun e => e.source == t)
    (arriving_eq : ∀ t, arriving.under t = edges.filter fun e => e.output == t) (root target : Text) :
    match path? leaving arriving root target with
    | none => ∀ steps, ¬Path edges root steps target
    | some steps => Shortest edges root steps target := by
  unfold path?
  by_cases same : root = target
  · rw [if_pos same]
    exact ⟨⟨same, by simp⟩, fun _ _ => Nat.zero_le _⟩
  · rw [if_neg same]
    have apart : Apart edges root target (.start .forwards leaving root)
        (.start .backwards arriving target) 0 0 := by
      refine ⟨Side.explored_start root leaving_eq, Side.explored_start target arriving_eq, rfl, rfl, ?_⟩
      intro t known
      rw [← Bool.not_eq_true, Side.knows_start]
      rintro rfl
      exact same (Side.knows_start.1 known).symm
    have searched := apart.search
    split at searched <;> rename_i heq <;> rw [heq]
    · exact searched
    · exact searched

end Search

end SemiThue.Derivation
