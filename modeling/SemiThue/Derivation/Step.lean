/-
Steps of derivations, and steps filed under one of their texts.
-/
import SemiThue.Rule
import SemiThue.Text.Table

set_option autoImplicit false

namespace SemiThue.Derivation

/-- One application of a rule along a derivation. -/
structure Step where
  /-- The text before. -/
  source : Text
  /-- The rule applied. -/
  rule : Rule
  /-- The text after. -/
  output : Text
deriving DecidableEq, Repr

/-- The step as it is shown to programmers. -/
def Step.describe (s : Step) : String :=
  s!"<Step {s.source.quoted} =[{s.rule.display}]=> {s.output.quoted}>"

/-- Steps filed under texts, several under each. -/
structure Links where
  /-- The steps filed under each text, the newest first. -/
  table : Text.Table (List Step) := {}
deriving DecidableEq, Repr

namespace Links

/-- The steps filed under a text, the newest first. -/
def under (links : Links) (t : Text) : List Step := (links.table.find? t).getD []

/-- Files one more step under a text. -/
def file (links : Links) (t : Text) (s : Step) : Links := ⟨links.table.insert t (s :: links.under t)⟩

/-- All steps. -/
def all (links : Links) : List Step := links.table.values.flatten

@[simp] theorem under_empty (t : Text) : ({} : Links).under t = [] := rfl

theorem under_file (links : Links) (t u : Text) (s : Step) :
    (links.file t s).under u = if u = t then s :: links.under t else links.under u := by
  unfold file under
  rw [Text.Table.find?_insert]
  split <;> rfl

theorem mem_all_of_mem_under {links : Links} {t : Text} {s : Step} (h : s ∈ links.under t) :
    s ∈ links.all := by
  unfold under at h
  cases hf : links.table.find? t with
  | none => simp [hf] at h
  | some steps =>
    rw [hf] at h
    exact List.mem_flatten_of_mem (Text.Table.mem_values_of_find? hf) h

/-- Filing steps by a text of theirs keeps those of each text together and in order. -/
theorem under_file_eq_filter {links : Links} {steps : List Step} {key : Step → Text}
    (h : ∀ t, links.under t = steps.filter fun e => key e == t) (s : Step) (t : Text) :
    (links.file (key s) s).under t = (s :: steps).filter fun e => key e == t := by
  rw [under_file, List.filter_cons]
  by_cases ht : t = key s
  · subst ht
    simp [h]
  · have : (key s == t) = false := beq_eq_false_iff_ne.2 (Ne.symm ht)
    simp [ht, this, h]

end Links

end SemiThue.Derivation
