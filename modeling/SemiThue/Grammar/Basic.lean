/-
Grammars: a bound on the length of words, the terminals, and the rules in order.

A terminal is a text, and a character of a text is terminal when the text of that one character is
among them; terminals of another length are kept and shown, and stand for nothing in a word.
`Grammar.judge` decides what becomes of a rewritten text. Four questions are asked in a fixed order,
and the order matters: a text that a rule leaves as it is counts as unchanged however long it is, and
a text beyond the bound and its margin is dropped before anyone asks whether it is a word. With a
negative margin that last rule takes words away too.
-/
import SemiThue.Rule
import SemiThue.Verdict

set_option autoImplicit false

namespace SemiThue

/-- A rewriting grammar with a bound on the words of interest. -/
structure Grammar where
  /-- The greatest length of a word. -/
  bound : Nat
  /-- The terminals, sorted, each once. -/
  terminals : List Text
  /-- The rules, in the order in which they are applied. -/
  rules : List Rule
  /-- The bound admits some word. -/
  bound_pos : 0 < bound
deriving DecidableEq, Repr

namespace Grammar

/-- The bound of a grammar that names none. -/
def defaultBound : Nat := 5

/-- The text that derivations start from if no other is named. -/
def defaultStart : Text := ['S']

/-- How far past the bound a text may grow if nothing else is asked. -/
def defaultMargin : Int := 3

/-- Terminals in the form in which grammars hold them. -/
def normalTerminals (terminals : List Text) : List Text := Text.withoutRepeats (Text.sort terminals)

theorem toNat_pos_of_not_le {bound : Int} (h : ¬bound ≤ 0) : 0 < bound.toNat := by omega

/-- The grammar with the given parts, unless the bound is not positive. -/
def make (bound : Int) (terminals : List Text) (rules : List Rule) : Except Fault Grammar :=
  if h : bound ≤ 0 then .error (.boundNotPositive bound)
  else .ok ⟨bound.toNat, normalTerminals terminals, rules, toNat_pos_of_not_le h⟩

/-- The grammar whose rules are given by their sides. A bad rule is reported before a bad bound. -/
def build (bound : Int) (terminals : List Text) (sides : List (Text × Text)) : Except Fault Grammar :=
  (sides.mapM fun p => Rule.make p.1 p.2) >>= make bound terminals

/-- The text is one of the terminals. -/
def isTerminal (g : Grammar) (t : Text) : Bool := g.terminals.contains t

/-- Every character of the text is terminal. -/
def isWord (g : Grammar) (t : Text) : Bool := t.all fun c => g.isTerminal [c]

/-- The rules with the given left side, in order. -/
def rulesFor (g : Grammar) (left : Text) : List Rule := g.rules.filter fun r => r.left == left

/-- The greatest length at which a text is still of interest. -/
def limit (g : Grammar) (margin : Int) : Int := g.bound + margin

/-- **The verdict on a text** that some rule made of `source`. -/
def judge (g : Grammar) (margin : Int) (source output : Text) : Verdict :=
  if output == source then .unchanged
  else if g.limit margin < output.length then .dropped
  else if g.isWord output then (if output.length ≤ g.bound then .word else .dropped)
  else .live

/-- The terminals in a row, or a dash if that row is empty. -/
def alphabet (g : Grammar) : String :=
  let row := ", ".intercalate (g.terminals.map Text.toString)
  if row.isEmpty then "-" else row

/-- The grammar in several lines. -/
def summary (g : Grammar) : String :=
  "\n".intercalate (s!"Grammar: n={g.bound}, L=\x7b{g.alphabet}\x7d, {g.rules.length} rules" ::
    g.rules.map fun r => s!"  {r.display}")

/-- The terminals written one after the other. -/
def letters (g : Grammar) : Text := g.terminals.flatten

/-- The grammar in one line. -/
def describe (g : Grammar) : String :=
  s!"<Grammar n={g.bound} terminals={g.letters.quoted} rules={g.rules.length}>"

/-! ## Verdicts, one by one -/

variable {g : Grammar} {margin : Int} {source output : Text}

theorem judge_eq_unchanged_iff : g.judge margin source output = .unchanged ↔ output = source := by
  simp only [judge, beq_iff_eq]
  split
  · simp [*]
  · split
    · simp [*]
    · split
      · split <;> simp [*]
      · simp [*]

theorem judge_eq_word_iff : g.judge margin source output = .word ↔
    output ≠ source ∧ (output.length : Int) ≤ g.limit margin ∧ g.isWord output = true ∧
      output.length ≤ g.bound := by
  simp only [judge, beq_iff_eq]
  split
  · simp [*]
  · split
    · simp only [reduceCtorEq, false_iff]; omega
    · split
      · split
        · simp only [true_iff]; exact ⟨by assumption, by omega, by assumption, by assumption⟩
        · simp only [reduceCtorEq, false_iff]; omega
      · simp [*]

theorem judge_eq_live_iff : g.judge margin source output = .live ↔
    output ≠ source ∧ (output.length : Int) ≤ g.limit margin ∧ g.isWord output = false := by
  simp only [judge, beq_iff_eq]
  split
  · simp [*]
  · split
    · simp only [reduceCtorEq, false_iff]; omega
    · split
      · split <;> simp [*]
      · rename_i h
        simp only [true_iff]
        exact ⟨by assumption, by omega, by simpa using h⟩

end Grammar

end SemiThue
