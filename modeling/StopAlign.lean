import StopAlign.Align.Division
import StopAlign.Align.Greedy
import StopAlign.Align.Strategy
import StopAlign.Align.Travelled
import StopAlign.Cell
import StopAlign.Dictionary
import StopAlign.Disk
import StopAlign.Export.Layer
import StopAlign.Export.Offsets
import StopAlign.Fault
import StopAlign.Feed.Stops
import StopAlign.Feed.Table
import StopAlign.Feed.Trips
import StopAlign.Geo.Distance
import StopAlign.Geo.Polyline
import StopAlign.Geo.Position
import StopAlign.Journal
import StopAlign.Main
import StopAlign.Number.Binary64
import StopAlign.Number.Circle
import StopAlign.Number.Decimal
import StopAlign.Number.Fixed
import StopAlign.Number.Power
import StopAlign.Number.Shortest
import StopAlign.Path
import StopAlign.Progress
import StopAlign.Proofs.Align.Division
import StopAlign.Proofs.Align.Greedy
import StopAlign.Proofs.Align.Nearest
import StopAlign.Proofs.Align.Strategy
import StopAlign.Proofs.Align.Travelled
import StopAlign.Proofs.Dictionary
import StopAlign.Proofs.Disk
import StopAlign.Proofs.Export.Offsets
import StopAlign.Proofs.Feed.Stops
import StopAlign.Proofs.Feed.Table
import StopAlign.Proofs.Feed.Trips
import StopAlign.Proofs.Geo.Distance
import StopAlign.Proofs.Geo.Polyline
import StopAlign.Proofs.Job
import StopAlign.Proofs.Number.Order
import StopAlign.Proofs.Outcome
import StopAlign.Proofs.Path
import StopAlign.Proofs.Run
import StopAlign.Proofs.Run.Refusal
import StopAlign.Proofs.Run.Rows
import StopAlign.Proofs.Run.Stages
import StopAlign.Proofs.Sequences
import StopAlign.Proofs.Shape.ArrayFile
import StopAlign.Proofs.Shape.Filling
import StopAlign.Proofs.Shape.Loading
import StopAlign.Proofs.Shape.Refusal
import StopAlign.Proofs.Shape.Renumbering
import StopAlign.Proofs.Shape.Store
import StopAlign.Proofs.Shape.Table
import StopAlign.Proofs.Shape.Written
import StopAlign.Proofs.Table.Blocks
import StopAlign.Proofs.Table.Csv
import StopAlign.Proofs.Table.Numeric
import StopAlign.Proofs.Table.Sheet
import StopAlign.Proofs.Text.Utf8
import StopAlign.Proofs.Trip.Completion
import StopAlign.Proofs.Trip.Findings
import StopAlign.Proofs.Trip.Fitting
import StopAlign.Proofs.Trip.Lines
import StopAlign.Proofs.Trip.Order
import StopAlign.Proofs.Trip.Register
import StopAlign.Proofs.Trip.Renumbering
import StopAlign.Proofs.Trip.Run
import StopAlign.Proofs.Trip.Segments
import StopAlign.Run
import StopAlign.Shape.ArrayFile
import StopAlign.Shape.Loading
import StopAlign.Shape.Record
import StopAlign.Shape.Store
import StopAlign.Shape.Table
import StopAlign.Sort
import StopAlign.Source
import StopAlign.Span
import StopAlign.Table.Csv
import StopAlign.Table.Numeric
import StopAlign.Table.Sheet
import StopAlign.Text.Blank
import StopAlign.Text.Digit
import StopAlign.Text.Printable
import StopAlign.Text.Quoted
import StopAlign.Text.Utf8
import StopAlign.Trip.Ledger
import StopAlign.Trip.Matching
import StopAlign.Trip.Segments
import StopAlign.Proofs.Shape.Reopening
import StopAlign.Proofs.Trip.Counts
import StopAlign.Proofs.Trip.Faults
import StopAlign.Proofs.Run.Lines
import StopAlign.Proofs.Number.Rounding
import StopAlign.Proofs.Number.Arithmetic
import StopAlign.Proofs.Shape.Gaps
import StopAlign.Proofs.Geo.Nearest
import StopAlign.Proofs.Geo.Cuts
import StopAlign.Proofs.Align.Windows
import StopAlign.Proofs.Align.Sweep
import StopAlign.Proofs.Align.History
import StopAlign.Proofs.Align.Renewal
import StopAlign.Proofs.Shape.BlockSize
import StopAlign.Proofs.Number.Circle
import StopAlign.Proofs.Geo.Scan
import StopAlign.Proofs.Align.Loop
import StopAlign.Proofs.Feed.Schedules
import StopAlign.Proofs.Geo.Foot
import StopAlign.Proofs.Table.Shortened
import StopAlign.Proofs.Shape.Shortened
