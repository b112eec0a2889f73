/-
What the command line says about itself.
-/

set_option autoImplicit false

namespace SemiThue.CommandLine

/-- Lines, each with its end. -/
def withEnds (lines : List String) : String := String.join (lines.map fun line => line ++ "\n")

/-- How the program is called. -/
def usageLines : List String :=
  [ "usage: langproc [-h] [--output-file FILE] [--no-display] [--start WORD]",
    "                [--time] [-v] [--debug] [--single] [--workers N] [--margin M]",
    "                [--no-atomic-dedup] [--derivations] [--no-color]",
    "                [grammar]" ]

/-- What the arguments mean. -/
def explanationLines : List String :=
  [ "",
    "Enumerate every word up to length n derivable from a rewriting grammar",
    "",
    "positional arguments:",
    "  grammar             Grammar file with settings and rules",
    "",
    "options:",
    "  -h, --help          show this help message and exit",
    "  --output-file FILE  Also write found words to FILE, one per line",
    "  --no-display        Do not print words on the console",
    "  --start WORD        Start string (default: S)",
    "  --time              Show processing time",
    "  -v, --verbose       List rules, show progress and a final summary",
    "  --debug             Log every derivation step",
    "  --single            Explore on one thread, in deterministic order",
    "  --workers N         Worker threads for concurrent exploration",
    "  --margin M          How far past n intermediate strings may grow (default:",
    "                      3)",
    "  --no-atomic-dedup   Check and insert seen strings in two steps (may expand a",
    "                      string twice)",
    "  --derivations       Print one derivation per word",
    "  --no-color          Disable colored output",
    "",
    "grammar file:",
    "  n = 5            maximum word length",
    "  L = \x7ba, b\x7d       terminal alphabet",
    "  S -> aSb | ab    rules; '|' separates alternatives, \x7bempty\x7d is epsilon",
    "",
    "examples:",
    "  langproc anbn.txt",
    "  langproc anbn.txt --start=aSb --single",
    "  langproc anbn.txt --output-file=words.txt --no-display --time",
    "  langproc anbn.txt --verbose --derivations" ]

/-- The short help. -/
def usage : String := withEnds usageLines

/-- The help. -/
def help : String := withEnds (usageLines ++ explanationLines)

end SemiThue.CommandLine
