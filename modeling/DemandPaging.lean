import DemandPaging.CommandLine.Directory
import DemandPaging.CommandLine.Options
import DemandPaging.CommandLine.Run
import DemandPaging.Config
import DemandPaging.Error
import DemandPaging.Fault
import DemandPaging.Frame.FreeFrames
import DemandPaging.Frame.Store
import DemandPaging.Frame.Table
import DemandPaging.Interval.Basic
import DemandPaging.Interval.Index
import DemandPaging.Main
import DemandPaging.Number
import DemandPaging.OrderedMap
import DemandPaging.Page
import DemandPaging.Policy.Basic
import DemandPaging.Policy.Clock
import DemandPaging.Policy.Kind
import DemandPaging.Policy.PageList
import DemandPaging.Policy.PagedMemory
import DemandPaging.Process.Basic
import DemandPaging.Process.State
import DemandPaging.Process.Table
import DemandPaging.Proofs.Agreement
import DemandPaging.Proofs.Alone
import DemandPaging.Proofs.Ample
import DemandPaging.Proofs.Bindings
import DemandPaging.Proofs.Budget
import DemandPaging.Proofs.Charting
import DemandPaging.Proofs.Completion
import DemandPaging.Proofs.Counting
import DemandPaging.Proofs.Cursor
import DemandPaging.Proofs.Departures
import DemandPaging.Proofs.Dispatch
import DemandPaging.Proofs.Effects
import DemandPaging.Proofs.Equivariance
import DemandPaging.Proofs.FastForward
import DemandPaging.Proofs.Findings
import DemandPaging.Proofs.Grammar
import DemandPaging.Proofs.Halfway
import DemandPaging.Proofs.Intervals
import DemandPaging.Proofs.Ledger
import DemandPaging.Proofs.Lines
import DemandPaging.Proofs.Lineup
import DemandPaging.Proofs.Links
import DemandPaging.Proofs.Lockstep
import DemandPaging.Proofs.Moves
import DemandPaging.Proofs.Names
import DemandPaging.Proofs.Neighbours
import DemandPaging.Proofs.Occasions
import DemandPaging.Proofs.Orders
import DemandPaging.Proofs.Paging
import DemandPaging.Proofs.Partition
import DemandPaging.Proofs.Positions
import DemandPaging.Proofs.Precedence
import DemandPaging.Proofs.Progress
import DemandPaging.Proofs.Queues
import DemandPaging.Proofs.Reading
import DemandPaging.Proofs.Recency
import DemandPaging.Proofs.Recorded
import DemandPaging.Proofs.Renaming
import DemandPaging.Proofs.Replay
import DemandPaging.Proofs.Residency
import DemandPaging.Proofs.Retention
import DemandPaging.Proofs.Retiming
import DemandPaging.Proofs.Rotation
import DemandPaging.Proofs.Runs
import DemandPaging.Proofs.Scant
import DemandPaging.Proofs.Seniority
import DemandPaging.Proofs.Sequences
import DemandPaging.Proofs.Span
import DemandPaging.Proofs.Spelling
import DemandPaging.Proofs.Standing
import DemandPaging.Proofs.Steps
import DemandPaging.Proofs.Stretching
import DemandPaging.Proofs.Sweeps
import DemandPaging.Proofs.Tallies
import DemandPaging.Proofs.TextLines
import DemandPaging.Proofs.Ticks
import DemandPaging.Proofs.Tracking
import DemandPaging.Proofs.Turns
import DemandPaging.Proofs.Twins
import DemandPaging.Proofs.Veils
import DemandPaging.Proofs.Waiting
import DemandPaging.Proofs.Walk
import DemandPaging.Proofs.Windows
import DemandPaging.Random.ChaCha
import DemandPaging.Random.Stream
import DemandPaging.Simulator.Agreement
import DemandPaging.Simulator.Basic
import DemandPaging.Simulator.Event
import DemandPaging.Simulator.Machine
import DemandPaging.Stats.Basic
import DemandPaging.Stats.Report
import DemandPaging.Stats.Totals
import DemandPaging.Survey
import DemandPaging.Text.Basic
import DemandPaging.Text.Characters
import DemandPaging.Trace.Medium
import DemandPaging.Trace.Reader
import DemandPaging.Trace.Record
