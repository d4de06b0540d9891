import PuzzlePlayback.SortedMap
import PuzzlePlayback.Text.Blank
import PuzzlePlayback.Text.Letter
import PuzzlePlayback.Text.Quoted
import PuzzlePlayback.Decimal.Binary
import PuzzlePlayback.Decimal.Shortest
import PuzzlePlayback.Decimal.Notation
import PuzzlePlayback.Decimal.Numeral
import PuzzlePlayback.Calculator.Failure
import PuzzlePlayback.Calculator.Fraction
import PuzzlePlayback.Calculator.Laurent
import PuzzlePlayback.Calculator.Token
import PuzzlePlayback.Calculator.Expression
import PuzzlePlayback.Json.Basic
import PuzzlePlayback.Json.Number
import PuzzlePlayback.Json.Reader
import PuzzlePlayback.Json.Writer
import PuzzlePlayback.Json.Decode
import PuzzlePlayback.Value
import PuzzlePlayback.Relation
import PuzzlePlayback.Program.Basic
import PuzzlePlayback.Puzzle
import PuzzlePlayback.Fault
import PuzzlePlayback.Program.Compilation
import PuzzlePlayback.World.Basic
import PuzzlePlayback.World.Rules
import PuzzlePlayback.World.Walk
import PuzzlePlayback.World.Ink
import PuzzlePlayback.World.Drawing
import PuzzlePlayback.World.Sandbox
import PuzzlePlayback.World.Solver
import PuzzlePlayback.World.Registry
import PuzzlePlayback.Proofs.TimerLedger
import PuzzlePlayback.Proofs.Verdict
import PuzzlePlayback.Replay
import PuzzlePlayback.Timers.Source
import PuzzlePlayback.Timers.ManualClock
import PuzzlePlayback.Timers.RequestQueue
import PuzzlePlayback.Timers.Delay
import PuzzlePlayback.Rating
import PuzzlePlayback.CompletionCode
import PuzzlePlayback.Preferences
import PuzzlePlayback.Player.Basic
import PuzzlePlayback.Player.Operations
import PuzzlePlayback.Player.Summary
import PuzzlePlayback.Format.Value
import PuzzlePlayback.Format.Program
import PuzzlePlayback.Format.Puzzle
import PuzzlePlayback.Format.World
import PuzzlePlayback.Format.Rating
import PuzzlePlayback.Format.Preferences
import PuzzlePlayback.Format.Event
import PuzzlePlayback.CommandLine.Arguments
import PuzzlePlayback.CommandLine.Run
import PuzzlePlayback.Main
import PuzzlePlayback.Proofs.PlayOut
import PuzzlePlayback.Proofs.StopAndGo
import PuzzlePlayback.Proofs.Grammar
import PuzzlePlayback.Proofs.Spelling
import PuzzlePlayback.Proofs.RoundTrip
import PuzzlePlayback.Proofs.Degrees
import PuzzlePlayback.Proofs.Faults
import PuzzlePlayback.Proofs.Journeys
import PuzzlePlayback.Proofs.ParallelRun
import PuzzlePlayback.Proofs.Driving
import PuzzlePlayback.Proofs.HeadlessRun
import PuzzlePlayback.Proofs.ExactArithmetic
import PuzzlePlayback.Proofs.Solution
import PuzzlePlayback.Proofs.Errors
import PuzzlePlayback.Proofs.Listener
import PuzzlePlayback.Proofs.ClockOrder
import PuzzlePlayback.Proofs.Padding
import PuzzlePlayback.Proofs.OwnDrawing
import PuzzlePlayback.Proofs.WireFormat
import PuzzlePlayback.Proofs.SameSolutions
import PuzzlePlayback.Proofs.ExactPolynomials
import PuzzlePlayback.Proofs.ExactFractions
import PuzzlePlayback.Proofs.SignalAndVerdict
import PuzzlePlayback.Proofs.OnRecord
import PuzzlePlayback.Proofs.ShownCheck
import PuzzlePlayback.Proofs.ShortestDigits
import PuzzlePlayback.Proofs.PlainNumbers
import PuzzlePlayback.Proofs.LastWrite
import PuzzlePlayback.Proofs.DrawnPath
import PuzzlePlayback.Proofs.Compilations
import PuzzlePlayback.Proofs.PlayingTime
import PuzzlePlayback.Proofs.UnionOfStrokes
import PuzzlePlayback.Proofs.Headings
import PuzzlePlayback.Proofs.MintedCodes
import PuzzlePlayback.Proofs.StaysOnFloor
import PuzzlePlayback.Proofs.CasualEdits
import PuzzlePlayback.Proofs.DecimalLiterals
import PuzzlePlayback.Proofs.ExactDoubles
import PuzzlePlayback.Proofs.StarRule
import PuzzlePlayback.Proofs.Powers
