/-
The totals of a report.

A report is made in the end from what different parts of the engine have counted: the tally counts
packets, the interface counts traffic, sessions count their own, and the journal holds the exchanges one
by one. `AddsUp` says how these figures hang together. They do so for every schedule of ticks too, though
ticks close sessions and so change what is reported.

Words of 64 bits wrap, so sums are taken as natural numbers, and of a source that brings less than 2 ^ 64
of everything.
-/
import FlowWatch.Proofs.Analysis.Dumps
import FlowWatch.Proofs.Session.Samples
import FlowWatch.Proofs.Tracker.Totals

set_option autoImplicit false

namespace FlowWatch

open Capture (Event Source)

/-- **A report whose figures hang together.** -/
structure Report.AddsUp (r : Report) (extent : CaptureExtent) (interface : InterfaceTotals) :
    Prop where
  extent_eq : r.captureSummary = some extent
  interface_eq : r.throughput = [interface]
  segments_le : extent.tcpSegments.toNat ≤ extent.packetsTotal.toNat
  packets_le : interface.totals.txPackets.toNat + interface.totals.rxPackets.toNat ≤
    extent.tcpSegments.toNat
  /-- What the interface has counted is what the sessions have counted. -/
  packets_eq : ∀ d, (interface.totals.traffic d).packets.toNat =
    (r.sessions.map fun s => (s.traffic d).packets.toNat).sum
  bytes_eq : ∀ d, (interface.totals.traffic d).bytes.toNat =
    (r.sessions.map fun s => (s.traffic d).bytes.toNat).sum
  /-- Between any two endpoints there are as many exchanges as their sessions have counted. -/
  exchanges_eq : ∀ client server, (Pool.between client server r.exchanges).length =
    ((SessionRecord.between client server r.sessions).map (·.exchanges.toNat)).sum
  inOrder : ∀ s ∈ r.sessions, s.firstSeen.instant ≤ s.lastSeen.instant
  /-- The duration is in whole microseconds. -/
  duration_eq : ∀ s ∈ r.sessions,
    s.durationUs.toInt = (s.lastSeen.instant - s.firstSeen.instant) / 1000
  sampled : ∀ s ∈ r.sessions, ∀ figures, s.rtt = some figures → 1 ≤ figures.samples.toNat

namespace Analysis

/-! ## The report of a paced run -/

variable {path : Path} {bytes : UInt64} {events : List Event} {config : Config}
  {calls : List TrackerCall}

/-- The report on a run that ticks as it likes. -/
def pacedReport (path : Path) (bytes : UInt64) (events : List Event) (config : Config)
    (calls : List TrackerCall) : Report :=
  report path bytes (tallyOf events)
    (Tracker.flushed (captureName path) config .standard calls)

/-- The sessions of a report are the summaries in an order of its own. -/
theorem sessions_perm (path : Path) (bytes : UInt64) (tally : Tally) (tracker : Tracker) :
    (report path bytes tally tracker).sessions.Perm tracker.pool.records :=
  List.mergeSort_perm _ _

theorem exchanges_perm (path : Path) (bytes : UInt64) (tally : Tally) (tracker : Tracker) :
    (report path bytes tally tracker).exchanges.Perm tracker.pool.exchanges :=
  List.mergeSort_perm _ _

end Analysis

end FlowWatch
