/-
The analysis of one capture.

All packets of a source go through one tracker in order, and what is still open at the end is
flushed. A packet without a time takes that of the packet before it; a frame that cannot be read
counts as a packet and nothing else. A capture that is cut within a record is analysed up to
there, while any other fault of the source costs the report, and so does a dump that cannot be
completed.

The tracker is told instants, and so the times of sessions and exchanges are written in UTC. Those of
the capture itself are written at the offset their packets were stamped with. For a source in UTC, as
a capture file is, that is one and the same; of any other source only the instants are right.
-/
import FlowWatch.Capture.File
import FlowWatch.Files.Path
import FlowWatch.Http.Decoding
import FlowWatch.Report
import FlowWatch.Tracker

set_option autoImplicit false

namespace FlowWatch

open Capture (Event Source SourceError)

/-- Why there is no report. -/
inductive AnalysisError where
  /-- The dump could not be completed. -/
  | dumpLost
  /-- The capture's size could not be found out. -/
  | sizeUnknown
  /-- The source failed. -/
  | source (e : SourceError)
  deriving DecidableEq, Repr

namespace Analysis

/-! ## Packets -/

/-- What is counted per packet, and the time of the latest packet that had one. -/
structure Tally where
  packets : UInt64 := 0
  segments : UInt64 := 0
  earliest : Option Stamp := none
  latest : Option Stamp := none
  current : Option Instant := none
  deriving DecidableEq, Repr

namespace Tally

/-- The earlier of a stamp and one that may be absent; of the same instant the one before stays. -/
def earlier (s : Stamp) : Option Stamp → Stamp
  | none => s
  | some before => if s.instant < before.instant then s else before

/-- The later of a stamp and one that may be absent; of the same instant the one before stays. -/
def later (s : Stamp) : Option Stamp → Stamp
  | none => s
  | some before => if before.instant < s.instant then s else before

/-- Counts a packet. -/
def packet (t : Tally) : Option Stamp → Tally
  | none => { t with packets := t.packets + 1 }
  | some stamp =>
    { t with
      packets := t.packets + 1
      earliest := some (earlier stamp t.earliest)
      latest := some (later stamp t.latest)
      current := some stamp.instant }

/-- The time of a segment in the packet at hand: the epoch before any packet had a time. -/
def seen (t : Tally) : Instant := t.current.getD 0

/-- Counts a segment. -/
def segment (t : Tally) : Tally := { t with segments := t.segments + 1 }

/-- What a report says about the capture. -/
def summary (t : Tally) : CaptureExtent where
  packetsTotal := t.packets
  tcpSegments := t.segments
  timeStart := t.earliest.bind (·.rfc3339?)
  timeEnd := t.latest.bind (·.rfc3339?)

end Tally

/-- An analysis under way. -/
structure Progress (σ : Type) where
  tally : Tally
  tracker : Tracker
  dump : Option (Dump.Writer σ)

variable {σ : Type}

/-- Takes in one packet. -/
def step (p : Progress σ) (e : Event) : Progress σ :=
  let tally := p.tally.packet e.stamp
  match Frame.segment e.link e.data tally.seen with
  | .ok (some s) =>
    let (tracker, dump) := p.tracker.observe p.dump s
    ⟨tally.segment, tracker, dump⟩
  | _ => { p with tally := tally }

/-- Takes in all packets and flushes what is left. -/
def run (tracker : Tracker) (dump : Option (Dump.Writer σ)) (events : List Event) : Progress σ :=
  let p := events.foldl step ⟨{}, tracker, dump⟩
  { p with tracker := p.tracker.flushAll }

/-! ## The report -/

/-- The name of the interface a capture stands for: its file name without the extension. -/
def captureName (path : Path) : String :=
  match path.stem? with
  | some stem => if stem.isEmpty then "capture" else stem
  | none => "capture"

/-- The report on what was found in the capture at `path`. -/
def report (path : Path) (bytes : UInt64) (tally : Tally) (tracker : Tracker) : Report :=
  let notices := tracker.pool.journal.toList
  let capture := tally.summary
  { Report.stub path bytes with
    generatedAt := (capture.timeEnd <|> capture.timeStart).getD Report.epochText
    captureSummary := some capture
    sessions := (notices.filterMap (·.summary?)).mergeSort Report.sessionBefore
    exchanges := (notices.filterMap (·.exchange?)).mergeSort Report.exchangeBefore
    throughput := [⟨tracker.interface, tracker.pool.counters⟩] }

/-- The error a source ends with; a cut is none. -/
def failure? : Option SourceError → Option SourceError
  | some (.truncated _) => none
  | stop => stop

/-- Completes a dump, if there is one. -/
def complete (dump : Option (Dump.Writer σ)) : Option (Dump.Writer σ) × Bool :=
  match dump with
  | none => (none, true)
  | some w => ((some w.flush.1), w.flush.2)

/-- Analyses a source and dumps its segments. `size` is the size of the capture's file, if it can
be told. The dump comes back as far as it got. -/
def withDump (path : Path) (size : Option UInt64) (source : Source) (config : Config)
    (dump : Option (Dump.Writer σ)) : Option (Dump.Writer σ) × Except AnalysisError Report :=
  let tracker := Tracker.new (captureName path) config .standard
  let p := run tracker dump source.events
  let (dump, isComplete) := complete p.dump
  -- A lost dump is told even where the source has failed too.
  if !isComplete then (dump, .error .dumpLost)
  else
    match failure? source.stop with
    | some e => (dump, .error (.source e))
    | none =>
      -- The size is needed for the report alone, so it is asked for last.
      match size with
      | none => (dump, .error .sizeUnknown)
      | some bytes => (dump, .ok (report path bytes p.tally p.tracker))

/-- Analyses a source without a dump. -/
def ofSource (path : Path) (size : Option UInt64) (source : Source) (config : Config) :
    Except AnalysisError Report :=
  (withDump path size source config (none : Option (Dump.Writer Unit))).2

end Analysis

end FlowWatch
