/-
Values that are no texts.

The program works on texts, but it can be handed other things where a text, or something else, is
needed. Of such a thing it knows the name of its kind, how it is shown, and whether it can be kept in a
set at all; that is enough to refuse it, and also to go on with it where nothing more is asked.
-/
import SemiThue.Number.Shortest
import SemiThue.Text.Quoted

set_option autoImplicit false

namespace SemiThue

/-- A value that is no text. -/
structure Foreign where
  /-- The name of its kind. -/
  kind : String
  /-- How it is shown. -/
  shown : String
  /-- It can be kept in a set. -/
  keyable : Bool := true
deriving DecidableEq, Inhabited, Repr

namespace Foreign

/-- Nothing at all. -/
def absent : Foreign := { kind := "NoneType", shown := "None" }

/-- A truth value. -/
def flag (b : Bool) : Foreign := { kind := "bool", shown := if b then "True" else "False" }

/-- A whole number. -/
def integer (n : Int) : Foreign := { kind := "int", shown := toString n }

/-- A value of the binary format. -/
def real (x : Number.Binary64) : Foreign := { kind := "float", shown := x.written }

/-- A row of values that are shown in the given way. -/
def row (members : List String) : Foreign :=
  { kind := "list", shown := "[" ++ ", ".intercalate members ++ "]", keyable := false }

/-- A table of values under keys, both shown in the given way. -/
def table (entries : List (String × String)) : Foreign :=
  let shown := entries.map fun e => e.1 ++ ": " ++ e.2
  { kind := "dict", shown := "\x7b" ++ ", ".intercalate shown ++ "\x7d", keyable := false }

end Foreign

/-- Something supplied where a value of a certain kind is needed. -/
inductive Supplied (α : Type) where
  /-- A value of that kind. -/
  | fitting (a : α)
  /-- Something else. -/
  | foreign (f : Foreign)
deriving DecidableEq, Repr

/-- How something is shown that was supplied where a text is needed. -/
def Supplied.shown : Supplied Text → String
  | .fitting t => t.quoted
  | .foreign f => f.shown

end SemiThue
