import GridRobot.Breakdown
import GridRobot.Bundle
import GridRobot.Checks
import GridRobot.Clock.Basic
import GridRobot.Clock.Pacer
import GridRobot.Clock.Rehearsal
import GridRobot.Clock.Session
import GridRobot.Clock.Watch
import GridRobot.Command.Grammar
import GridRobot.Command.Line
import GridRobot.Command.Performance
import GridRobot.Command.Reading
import GridRobot.Command.Run
import GridRobot.Config.Basic
import GridRobot.Config.Cache
import GridRobot.Config.Read
import GridRobot.Console
import GridRobot.ErrorClass
import GridRobot.Files.Path
import GridRobot.Files.Portion
import GridRobot.Files.Tree
import GridRobot.Grid
import GridRobot.Main
import GridRobot.Number.Double
import GridRobot.Number.Quotient
import GridRobot.Number.Shortest
import GridRobot.Program.Basic
import GridRobot.Proofs.Clock.Batches
import GridRobot.Proofs.Clock.Pacer
import GridRobot.Proofs.Clock.Punctual
import GridRobot.Proofs.Clock.Received
import GridRobot.Proofs.Command.ExitStatus
import GridRobot.Proofs.Command.Performance
import GridRobot.Proofs.Command.Record
import GridRobot.Proofs.Command.Stage
import GridRobot.Proofs.Command.StepLimit
import GridRobot.Proofs.Config.Cached
import GridRobot.Proofs.Config.Range
import GridRobot.Proofs.Config.Settings
import GridRobot.Proofs.Config.Spelled
import GridRobot.Proofs.Files.Follow
import GridRobot.Proofs.Program.Calls
import GridRobot.Proofs.Program.Guarded
import GridRobot.Proofs.Program.Linked
import GridRobot.Proofs.Program.Nesting
import GridRobot.Proofs.Program.Relined
import GridRobot.Proofs.Reading
import GridRobot.Proofs.Run.Attempts
import GridRobot.Proofs.Run.Beepers
import GridRobot.Proofs.Run.Blame
import GridRobot.Proofs.Run.Compiled
import GridRobot.Proofs.Run.Frames
import GridRobot.Proofs.Run.Guarded
import GridRobot.Proofs.Run.Halting
import GridRobot.Proofs.Run.Limits
import GridRobot.Proofs.Run.Meaning
import GridRobot.Proofs.Run.Outcome
import GridRobot.Proofs.Run.Progress
import GridRobot.Proofs.Run.Refinement
import GridRobot.Proofs.Run.Relined
import GridRobot.Proofs.Run.Safety
import GridRobot.Proofs.Run.Stopped
import GridRobot.Proofs.Run.Turn
import GridRobot.Proofs.Run.Turns
import GridRobot.Proofs.Run.Upcoming
import GridRobot.Proofs.Scheduler.Delivery
import GridRobot.Proofs.Scheduler.Desk
import GridRobot.Proofs.Scheduler.Invariant
import GridRobot.Proofs.Scheduler.Listener
import GridRobot.Proofs.Scheduler.Pace
import GridRobot.Proofs.Scheduler.Refused
import GridRobot.Proofs.Scheduler.Sound
import GridRobot.Proofs.Scheduler.Steady
import GridRobot.Proofs.Scheduler.Untouched
import GridRobot.Proofs.Source.Binding
import GridRobot.Proofs.Source.CompileOutcome
import GridRobot.Proofs.Source.Completeness
import GridRobot.Proofs.Source.Cut
import GridRobot.Proofs.Source.Depth
import GridRobot.Proofs.Source.Grammar
import GridRobot.Proofs.Source.Layout
import GridRobot.Proofs.Source.Lexing
import GridRobot.Proofs.Source.Naming
import GridRobot.Proofs.Source.Nesting
import GridRobot.Proofs.Source.Origin
import GridRobot.Proofs.Source.Overrun
import GridRobot.Proofs.Source.Parser
import GridRobot.Proofs.Source.Placed
import GridRobot.Proofs.Source.Relaid
import GridRobot.Proofs.Source.Resolved
import GridRobot.Proofs.Source.Soundness
import GridRobot.Proofs.Source.Walk
import GridRobot.Proofs.Source.WalkEnds
import GridRobot.Proofs.Source.Written
import GridRobot.Proofs.Text.Integer
import GridRobot.Proofs.Text.Numeral
import GridRobot.Proofs.Text.Trim
import GridRobot.Proofs.Workbench.Answered
import GridRobot.Proofs.Workbench.Arrivals
import GridRobot.Proofs.Workbench.Count
import GridRobot.Proofs.Workbench.Declined
import GridRobot.Proofs.Workbench.Drawn
import GridRobot.Proofs.Workbench.History
import GridRobot.Proofs.Workbench.Page
import GridRobot.Proofs.Workbench.Played
import GridRobot.Proofs.Workbench.SharedWorld
import GridRobot.Proofs.Workbench.Sound
import GridRobot.Proofs.Workbench.Stale
import GridRobot.Proofs.Workbench.Tally
import GridRobot.Proofs.World.Action
import GridRobot.Proofs.World.Contained
import GridRobot.Proofs.World.Described
import GridRobot.Proofs.World.Draft
import GridRobot.Proofs.World.Flawed
import GridRobot.Proofs.World.Fold
import GridRobot.Proofs.World.Formats
import GridRobot.Proofs.World.Grammar
import GridRobot.Proofs.World.Invariant
import GridRobot.Proofs.World.Library
import GridRobot.Proofs.World.Listed
import GridRobot.Proofs.World.Ordered
import GridRobot.Proofs.World.Parts
import GridRobot.Proofs.World.Picture
import GridRobot.Proofs.World.Reported
import GridRobot.Proofs.World.Reset
import GridRobot.Proofs.World.Undo
import GridRobot.Proofs.World.Unreadable
import GridRobot.Proofs.World.Written
import GridRobot.Reading
import GridRobot.Run.Fault
import GridRobot.Run.Machine
import GridRobot.Run.Trace
import GridRobot.Scheduler.Basic
import GridRobot.Scheduler.Desk
import GridRobot.Scheduler.Session
import GridRobot.Source.Binding
import GridRobot.Source.Compile
import GridRobot.Source.Error
import GridRobot.Source.Lexer
import GridRobot.Source.Parser
import GridRobot.Source.Token
import GridRobot.Source.Tree
import GridRobot.Text.Blank
import GridRobot.Text.Digit
import GridRobot.Text.Integer
import GridRobot.Text.Letter
import GridRobot.Text.Loose
import GridRobot.Text.Printable
import GridRobot.Text.Quoted
import GridRobot.Text.Split
import GridRobot.Value.Basic
import GridRobot.Value.Calendar
import GridRobot.Workbench.Basic
import GridRobot.Workbench.Loading
import GridRobot.Workbench.Requests
import GridRobot.World.Basic
import GridRobot.World.Description
import GridRobot.World.Entry
import GridRobot.World.Format
import GridRobot.World.FormatError
import GridRobot.World.Library
import GridRobot.World.Lines
import GridRobot.World.Picture
import GridRobot.World.Values
import GridRobot.Yaml.Blueprint
import GridRobot.Yaml.Cursor
import GridRobot.Yaml.Directive
import GridRobot.Yaml.Document
import GridRobot.Yaml.LoadError
import GridRobot.Yaml.Node
import GridRobot.Yaml.Reader
import GridRobot.Yaml.Scalar
import GridRobot.Yaml.Supply
import GridRobot.Yaml.Timestamp
import GridRobot.Yaml.Token
