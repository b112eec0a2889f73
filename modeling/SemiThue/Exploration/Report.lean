/-
The report on a run that has ended well.

Its counts are whole numbers of any sign, because a report can be made up by hand and is shown all the
same. The report on a run is `Report.ofTrail`, and there they are what was counted.
-/
import SemiThue.Exploration.Strategy
import SemiThue.Exploration.Trail
import SemiThue.Foreign

set_option autoImplicit false

namespace SemiThue.Exploration

/-- What a run amounted to. -/
structure Report where
  /-- The strategy of the run. -/
  strategy : Strategy
  /-- What it started from. -/
  start : Supplied Text
  /-- Words told. -/
  words : Int
  /-- Texts taken up. -/
  expanded : Int
  /-- Results dropped. -/
  dropped : Int
  /-- Applications that changed nothing. -/
  unchanged : Int
  /-- Generations completed; none on a pool. -/
  generations : Int := 0
deriving DecidableEq, Repr

namespace Report

/-- The report on a run that left a given trail. -/
def ofTrail {σ : Type} (strategy : Strategy) (start : Text) (trail : Trail σ) (generations : Nat) :
    Report :=
  { strategy
    start := .fitting start
    words := trail.tally.words
    expanded := trail.expanded
    dropped := trail.tally.dropped
    unchanged := trail.tally.unchanged
    generations }

/-- The report in several lines, with the time that the run took in writing. -/
def summary (r : Report) (took : String) : String :=
  let lines :=
    [ s!"Exploration [{r.strategy.name}] from {r.start.shown}",
      s!"  Words found: {r.words}",
      s!"  Strings expanded: {r.expanded}",
      s!"  Discarded: {r.dropped}",
      s!"  No-op applications: {r.unchanged}",
      s!"  Elapsed: {took}s" ]
  let generations :=
    match r.strategy with
    | .sequential => [s!"  Generations: {r.generations}"]
    | .concurrent _ => []
  "\n".intercalate (lines ++ generations)

/-- The report in one line. -/
def describe (r : Report) : String :=
  s!"<ExplorationResult {r.strategy.name}: {r.words} words, {r.expanded} expanded>"

end Report

end SemiThue.Exploration
