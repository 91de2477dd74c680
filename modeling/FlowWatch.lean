import FlowWatch.Address
import FlowWatch.Analysis
import FlowWatch.Capture.Block
import FlowWatch.Capture.Clock
import FlowWatch.Capture.File
import FlowWatch.Capture.Legacy
import FlowWatch.Capture.Window
import FlowWatch.CommandLine.Analyse
import FlowWatch.CommandLine.Arguments
import FlowWatch.CommandLine.Help
import FlowWatch.CommandLine.Run
import FlowWatch.Config.Basic
import FlowWatch.Config.Reader
import FlowWatch.Dump
import FlowWatch.Files.Glob
import FlowWatch.Files.Path
import FlowWatch.Files.System
import FlowWatch.Files.Tree
import FlowWatch.Files.Wildcard
import FlowWatch.Flow
import FlowWatch.Frame
import FlowWatch.Http.Cursor
import FlowWatch.Http.Decoding
import FlowWatch.Http.Message
import FlowWatch.Json.Reader
import FlowWatch.Json.Value
import FlowWatch.Main
import FlowWatch.Observation.Counters
import FlowWatch.Observation.Line
import FlowWatch.Observation.Notice
import FlowWatch.Observation.Record
import FlowWatch.Pool.Basic
import FlowWatch.Pool.Slot
import FlowWatch.Protocol.Event
import FlowWatch.Protocol.Registry
import FlowWatch.Report
import FlowWatch.Report.Codec
import FlowWatch.RoundTrips
import FlowWatch.Segment
import FlowWatch.SeqCache.Basic
import FlowWatch.Sequence
import FlowWatch.Session.Basic
import FlowWatch.Session.Side
import FlowWatch.Session.Watermark
import FlowWatch.Text.Blank
import FlowWatch.Text.Decimal
import FlowWatch.Text.Quoted
import FlowWatch.Text.Rounding
import FlowWatch.Text.Terminal
import FlowWatch.Text.Unprintable
import FlowWatch.Text.Uppercase
import FlowWatch.Text.Utf8
import FlowWatch.Time.Calendar
import FlowWatch.Time.Instant
import FlowWatch.Time.Stamp
import FlowWatch.Tracker
import FlowWatch.Proofs.SeqCache.Order
import FlowWatch.Proofs.SeqCache.Slab
import FlowWatch.Proofs.SeqCache.Walks
import FlowWatch.Proofs.SeqCache.Refinement
import FlowWatch.Proofs.SeqCache.Answers
import FlowWatch.Proofs.Session.Lifecycle
import FlowWatch.Proofs.Session.Traffic
import FlowWatch.Proofs.Session.Samples
import FlowWatch.Proofs.Pool.Accounting
import FlowWatch.Proofs.Pool.Recycling
import FlowWatch.Proofs.Tracker.Isolation
import FlowWatch.Proofs.Pool.Generations
import FlowWatch.Proofs.Tracker.RoundTrips
import FlowWatch.Proofs.Pool.Race
import FlowWatch.Proofs.Pool.Books
import FlowWatch.Proofs.Tracker.Conservation
import FlowWatch.Proofs.Pool.Handles
import FlowWatch.Proofs.SeqCache.Shift
import FlowWatch.Proofs.Tracker.Renumbering
import FlowWatch.Proofs.Tracker.Protocols
import FlowWatch.Proofs.Tracker.Exchanges
import FlowWatch.Proofs.Analysis.Totals
import FlowWatch.Proofs.Tracker.Ticks
import FlowWatch.Proofs.Capture.Formats
import FlowWatch.Proofs.Report.RoundTrip
import FlowWatch.Proofs.Analysis.Deliveries
import FlowWatch.Proofs.Tracker.Delay
import FlowWatch.Proofs.CommandLine.Inputs
import FlowWatch.Proofs.SeqCache.Acknowledgment
import FlowWatch.Proofs.Session.Ageing
import FlowWatch.Proofs.Tracker.Termination
import FlowWatch.Proofs.Tracker.DecoderCalls
import FlowWatch.Proofs.Pool.Capacity
import FlowWatch.Proofs.Tracker.Directions
import FlowWatch.Proofs.Pool.Activity
import FlowWatch.Proofs.Pool.Flushes
import FlowWatch.Proofs.Tracker.Flushes
import FlowWatch.Proofs.Tracker.Idleness
import FlowWatch.Proofs.Http.RoundTrip
import FlowWatch.Proofs.Http.Truncation
import FlowWatch.Proofs.Http.Bodies
import FlowWatch.Proofs.Flow.Names
import FlowWatch.Proofs.Capture.Times
import FlowWatch.Proofs.RoundTrips.Figures
import FlowWatch.Proofs.Analysis.Writing
import FlowWatch.Proofs.Dump.ReadBack
import FlowWatch.Proofs.Capture.Interfaces
import FlowWatch.Proofs.Frame.RoundTrip
import FlowWatch.Proofs.Tracker.Activity
import FlowWatch.Proofs.SeqCache.Capacity
import FlowWatch.Proofs.Http.Partition
