/-
Grammars read from files.

The bytes of a file must be a text; carriage returns in it, alone or before a line feed, count as line
feeds.
-/
import SemiThue.Files.Volume
import SemiThue.Grammar.Source.Loaded

set_option autoImplicit false

namespace SemiThue.Grammar.Source

/-- The grammar that bytes stand for, if they are a text. -/
def Loaded.ofBytes (bytes : List UInt8) (origin : Text) : Except Fault Loaded :=
  match Utf8.decode bytes with
  | .ok text => .ok (ofText text.unifyLineEnds origin)
  | .error flaw => .error (.flawed flaw)

/-- **Reads a grammar** from a file. -/
def Loaded.ofFile (v : Files.Volume) (path : Files.Path) : Except Fault Loaded :=
  match v.read path with
  | .ok bytes => ofBytes bytes path.toText
  | .error fault => .error fault

end SemiThue.Grammar.Source
