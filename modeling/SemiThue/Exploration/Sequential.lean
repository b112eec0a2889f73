/-
The sequential strategy: generation by generation.

A generation is a list of texts. Each text of it is taken up in turn and every rule is applied to it
in order; words are told at once, and live texts that were never come upon before make up the next
generation. The exploration ends with the first generation that is empty, or when the listener refuses
a word; in that case everything stays as it was at that moment, the count of outstanding texts
included.

That it ends needs an argument, since rules may make texts longer and may undo each other. A text
joins the next generation only when it is visited for the first time, it is then one of the finitely
many texts that can occur at all, and so a generation with a successor leaves fewer of these to come.
-/
import SemiThue.Exploration.Trail
import SemiThue.Exploration.Universe

set_option autoImplicit false

namespace SemiThue.Exploration.Sequential

/-- An exploration under way. -/
structure State (σ : Type) where
  /-- The texts come upon so far. -/
  visited : Visited
  /-- The next generation, as far as it is known, the newest first. -/
  next : List Text
  /-- How many texts are to be taken up or under way. -/
  outstanding : Outstanding
  /-- What the exploration leaves behind. -/
  trail : Trail σ

namespace State

variable {σ : Type}

/-- Takes a live text into the next generation, if it is new. -/
def claim (s : State σ) (t : Text) : State σ :=
  match s.visited.claim? t with
  | none => s
  | some visited =>
    { s with visited, next := t :: s.next, outstanding := s.outstanding.up }

end State

variable {σ : Type}

/-- Applies one rule to one text. -/
def applyRule (scope : Scope) (listener : Listener σ) (text : Text) (rule : Rule) : Action (State σ) :=
  fun s =>
    let a := scope.apply text rule
    let s := { s with trail := s.trail.took a }
    match a.verdict with
    | .word =>
      match Trail.tell listener s.outstanding a.step.output s.trail with
      | (trail, fault) => ({ s with trail }, fault)
    | .live => (s.claim a.step.output, none)
    | .dropped | .unchanged => (s, none)

/-- Takes up one text. -/
def expand (scope : Scope) (listener : Listener σ) (text : Text) : Action (State σ) := fun s =>
  match Action.each (applyRule scope listener text) scope.grammar.rules
      { s with trail := s.trail.opened text } with
  | (s, none) => ({ s with outstanding := s.outstanding.down }, none)
  | (s, some fault) => (s, some fault)

/-- The line with which a generation begins in the journal. -/
def heading (number texts : Nat) : String := s!"Generation {number}: {texts} strings"

/-- Takes up the texts of a generation. -/
def generation (scope : Scope) (listener : Listener σ) (number : Nat) (stage : List Text) :
    Action (State σ) := fun s =>
  Action.each (expand scope listener) stage
    { s with
      next := []
      trail := s.trail.noted .debug (heading number stage.length) }

/-! ## A generation stays within the universe -/

/-- The next generation holds texts over the given characters, and each of them was paid for by a
text that is to come no more. -/
def Paid (letters : List Char) (limit : Int) (budget : Nat) (s : State σ) : Prop :=
  (∀ t ∈ s.next, t.Over letters) ∧ unvisited letters limit s.visited + s.next.length ≤ budget

theorem Paid.claim {letters : List Char} {limit : Int} {budget : Nat} {s : State σ}
    (h : Paid letters limit budget s) {t : Text} (hl : (t.length : Int) ≤ limit)
    (ht : t.Over letters) : Paid letters limit budget (s.claim t) := by
  unfold State.claim
  split
  · exact h
  · rename_i visited hc
    obtain ⟨hv, rfl⟩ := Visited.claim?_eq_some_iff.1 hc
    refine ⟨fun u hu => ?_, ?_⟩
    · rcases List.mem_cons.1 hu with rfl | hu
      · exact ht
      · exact h.1 u hu
    · have := unvisited_insert_lt hl ht hv
      have := h.2
      simp only [List.length_cons]
      omega

variable {scope : Scope} {listener : Listener σ} {start : Text} {budget : Nat}

theorem paid_applyRule {text : Text} {rule : Rule} (hr : rule ∈ scope.grammar.rules)
    (ht : text.Over (scope.grammar.charactersFrom start)) {s : State σ}
    (h : Paid (scope.grammar.charactersFrom start) scope.limit budget s) :
    Paid (scope.grammar.charactersFrom start) scope.limit budget
      (applyRule scope listener text rule s).1 := by
  simp only [applyRule]
  split
  · exact h
  · rename_i hv
    have h' : Paid (scope.grammar.charactersFrom start) scope.limit budget
        { s with trail := s.trail.took (scope.apply text rule) } := h
    exact h'.claim (Scope.length_le_limit_of_live hv) (Grammar.over_rewrite hr ht)
  · exact h
  · exact h

theorem paid_expand {text : Text} (ht : text.Over (scope.grammar.charactersFrom start))
    {s : State σ} (h : Paid (scope.grammar.charactersFrom start) scope.limit budget s) :
    Paid (scope.grammar.charactersFrom start) scope.limit budget (expand scope listener text s).1 := by
  have hk : Paid (scope.grammar.charactersFrom start) scope.limit budget
      (Action.each (applyRule scope listener text) scope.grammar.rules
        { s with trail := s.trail.opened text }).1 :=
    Action.each_keeps (fun r hr u hu => paid_applyRule hr ht hu) h
  unfold expand
  split
  · rename_i u heq
    rw [heq] at hk
    exact hk
  · rename_i u fault heq
    rw [heq] at hk
    exact hk

/-- After a generation of texts over the right characters, the next one is over them too, and no
longer than the number of texts of the universe that were visited meanwhile. -/
theorem paid_generation (listener : Listener σ) (number : Nat) {stage : List Text}
    (hs : ∀ t ∈ stage, t.Over (scope.grammar.charactersFrom start)) (s : State σ) :
    Paid (scope.grammar.charactersFrom start) scope.limit
      (unvisited (scope.grammar.charactersFrom start) scope.limit s.visited)
      (generation scope listener number stage s).1 :=
  Action.each_keeps (fun t ht _ hu => paid_expand (hs t ht) hu)
    ⟨by simp, by simp⟩

/-! ## The whole exploration -/

/-- How an exploration ended. -/
structure Outcome (σ : Type) where
  /-- The state at the end. -/
  state : State σ
  /-- How many generations were completed. -/
  generations : Nat
  /-- The fault with which the listener ended the exploration, if it did. -/
  fault : Option Fault

/-- Explores from a generation on. -/
def explore (scope : Scope) (listener : Listener σ) (start : Text) (number : Nat) (stage : List Text)
    (within : ∀ t ∈ stage, t.Over (scope.grammar.charactersFrom start)) (s : State σ) : Outcome σ :=
  if _hs : stage = [] then ⟨s, number, none⟩
  else
    match _hg : generation scope listener number stage s with
    | (s', some fault) => ⟨s', number, some fault⟩
    | (s', none) =>
      explore scope listener start (number + 1) s'.next.reverse
        (by have h := (paid_generation listener number within s).1
            rw [_hg] at h
            exact fun t ht => h t (List.mem_reverse.1 ht)) s'
termination_by
  unvisited (scope.grammar.charactersFrom start) scope.limit s.visited +
    if stage = [] then 0 else 1
decreasing_by
  have h := (paid_generation listener number within s).2
  rw [_hg] at h
  simp only [_hs, ↓reduceIte] at h ⊢
  split
  · omega
  · rename_i hn
    have : 0 < s'.next.length := List.length_pos_iff.2 fun e => hn (by rw [e]; rfl)
    omega

/-- The state before the first generation, which is the start alone. -/
def State.initial (start : Text) (trail : Trail σ) : State σ :=
  { visited := Visited.ofList [start], next := [], outstanding := 1, trail }

/-- **Explores from a start text**, generation by generation. -/
def run (scope : Scope) (listener : Listener σ) (start : Text) (trail : Trail σ) : Outcome σ :=
  explore scope listener start 0 [start]
    (by intro t ht; rw [List.mem_singleton.1 ht]; exact scope.grammar.over_start start)
    (.initial start trail)

end SemiThue.Exploration.Sequential
