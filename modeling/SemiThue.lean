import SemiThue.Action
import SemiThue.Clock.Duration
import SemiThue.Clock.Seconds
import SemiThue.CommandLine.Arguments
import SemiThue.CommandLine.Help
import SemiThue.CommandLine.Option
import SemiThue.CommandLine.Session
import SemiThue.CommandLine.Word
import SemiThue.Derivation.Basic
import SemiThue.Derivation.Graph
import SemiThue.Derivation.Path
import SemiThue.Derivation.Recording
import SemiThue.Derivation.Step
import SemiThue.Exploration.Explorer
import SemiThue.Exploration.Outstanding
import SemiThue.Exploration.Pool.Basic
import SemiThue.Exploration.Pool.Effort
import SemiThue.Exploration.Pool.Run
import SemiThue.Exploration.Queue
import SemiThue.Exploration.Report
import SemiThue.Exploration.Sequential
import SemiThue.Exploration.Strategy
import SemiThue.Exploration.Trail
import SemiThue.Exploration.Universe
import SemiThue.Exploration.Visited
import SemiThue.Exploration.WorkItem
import SemiThue.Fault
import SemiThue.Files.Contents
import SemiThue.Files.Handle
import SemiThue.Files.Path
import SemiThue.Files.Volume
import SemiThue.Foreign
import SemiThue.Grammar.Basic
import SemiThue.Grammar.Source.Diagnostic
import SemiThue.Grammar.Source.File
import SemiThue.Grammar.Source.Line
import SemiThue.Grammar.Source.Loaded
import SemiThue.Journal
import SemiThue.Main
import SemiThue.Measure
import SemiThue.Number.Binary64
import SemiThue.Number.Rounding
import SemiThue.Number.Shortest
import SemiThue.Proofs.Ended
import SemiThue.Proofs.Exhaustive
import SemiThue.Proofs.Listening
import SemiThue.Proofs.Pool.Agreement
import SemiThue.Proofs.Pool.Alone
import SemiThue.Proofs.Pool.Calm
import SemiThue.Proofs.Pool.Custody
import SemiThue.Proofs.Pool.Failure
import SemiThue.Proofs.Pool.FirstFailure
import SemiThue.Proofs.Pool.Join
import SemiThue.Proofs.Pool.Ledger
import SemiThue.Proofs.Pool.Overheard
import SemiThue.Proofs.Pool.Sound
import SemiThue.Proofs.Pool.Turn
import SemiThue.Proofs.Reach
import SemiThue.Proofs.Runs
import SemiThue.Proofs.Sequential.Exhaustive
import SemiThue.Proofs.Sequential.Overheard
import SemiThue.Rule
import SemiThue.Sink.Console
import SemiThue.Sink.File
import SemiThue.Sink.Outlets
import SemiThue.Terminal.Palette
import SemiThue.Terminal.Progress
import SemiThue.Terminal.Transcript
import SemiThue.Text.Basic
import SemiThue.Text.Blank
import SemiThue.Text.Digit
import SemiThue.Text.Hex
import SemiThue.Text.Letter
import SemiThue.Text.Lines
import SemiThue.Text.Numeral
import SemiThue.Text.Printable
import SemiThue.Text.Quoted
import SemiThue.Text.Range
import SemiThue.Text.Table
import SemiThue.Text.Utf8
import SemiThue.Verdict
import SemiThue.Proofs.Pool.Relaxed
import SemiThue.Proofs.Derivation.Chart
import SemiThue.Proofs.Pool.Charted
import SemiThue.Proofs.Derivation.Words
import SemiThue.Proofs.Derivation.Search
import SemiThue.Proofs.Derivation.Shortest
import SemiThue.Proofs.Sequential.Loop
import SemiThue.Proofs.Moments
import SemiThue.Proofs.Derivation.Drawn
import SemiThue.Proofs.Pool.Drawn
import SemiThue.Proofs.Derivation.Determined
import SemiThue.Proofs.Sequential.Termination
import SemiThue.Proofs.Pool.Progress
import SemiThue.Proofs.Text.Replace
import SemiThue.Proofs.Chain
import SemiThue.Proofs.Language
import SemiThue.Proofs.NonShrinking
import SemiThue.Proofs.Sequential.Levels
import SemiThue.Proofs.Comparison
import SemiThue.Proofs.Text.Rename
import SemiThue.Proofs.Renaming
import SemiThue.Proofs.Isolation
import SemiThue.Proofs.Sequential.Claims
import SemiThue.Proofs.Pool.Census
import SemiThue.Proofs.Statistics
import SemiThue.Proofs.Text.Utf8
import SemiThue.Proofs.Text.Lines
import SemiThue.Proofs.Grammar.Letters
import SemiThue.Proofs.Files.Writing
import SemiThue.Proofs.Replay
import SemiThue.Proofs.Sink.Delivery
import SemiThue.Proofs.CommandLine.Ready
import SemiThue.Proofs.CommandLine.Output
import SemiThue.Proofs.Text.Pieces
import SemiThue.Proofs.Rewriting
import SemiThue.Proofs.Text.Erasing
import SemiThue.Proofs.Text.Trim
import SemiThue.Proofs.Text.Numeral
import SemiThue.Proofs.Grammar.Meaning
import SemiThue.Proofs.Grammar.Reading
import SemiThue.Proofs.Grammar.RightSides
import SemiThue.Proofs.Grammar.Sheet
import SemiThue.Proofs.Grammar.RoundTrip
import SemiThue.Proofs.Grammar.Loading
import SemiThue.Proofs.Grammar.Concatenation
import SemiThue.Proofs.Grammar.File
import SemiThue.Proofs.Sequential.Outstanding
import SemiThue.Proofs.Number.Rounding
import SemiThue.Proofs.Clock.Face
import SemiThue.Proofs.Terminal.Screen
import SemiThue.Proofs.Terminal.StatusLine
import SemiThue.Proofs.Sink.LifeCycle
