/-
Analysis reports.

A report holds what was read, the finished sessions and the exchanges, each in an order that
depends on the capture alone, and the totals of the interface.
-/
import FlowWatch.Observation.Counters
import FlowWatch.Observation.Record

set_option autoImplicit false

namespace FlowWatch

/-- The program that wrote a report. -/
structure Tool where
  name : String
  version : String
  deriving DecidableEq, Repr

/-- The capture a report is about. -/
structure Input where
  path : String
  bytes : UInt64
  deriving DecidableEq, Repr

/-- How much a capture holds; the times are absent where they have no written form. -/
structure CaptureExtent where
  packetsTotal : UInt64
  tcpSegments : UInt64
  timeStart : Option String
  timeEnd : Option String
  deriving DecidableEq, Repr

/-- The totals of an interface. -/
structure InterfaceTotals where
  interface : String
  totals : Counters
  deriving DecidableEq, Repr

/-- A report. -/
structure Report where
  reportVersion : UInt32
  tool : Tool
  generatedAt : String
  input : Input
  captureSummary : Option CaptureExtent
  sessions : List SessionRecord
  exchanges : List ExchangeRecord
  throughput : List InterfaceTotals
  deriving DecidableEq, Repr

namespace Report

/-- The version of the report's layout. -/
def currentVersion : UInt32 := 1

/-- The time of a report on a capture that has none. -/
def epochText : String := "1970-01-01T00:00:00Z"

/-- The name and version of this program. -/
def thisTool : Tool := ⟨"flowrtt", "0.1.0"⟩

/-- A report with nothing but the input filled in. -/
def stub (path : String) (bytes : UInt64) : Report where
  reportVersion := currentVersion
  tool := thisTool
  generatedAt := epochText
  input := ⟨path, bytes⟩
  captureSummary := none
  sessions := []
  exchanges := []
  throughput := []

/-- Sessions by first activity, then client, then server. -/
def sessionBefore (a b : SessionRecord) : Bool :=
  if a.firstSeen.instant ≠ b.firstSeen.instant then a.firstSeen.instant < b.firstSeen.instant
  else if a.client ≠ b.client then a.client < b.client
  else a.server ≤ b.server

/-- Exchanges by the time of the request, then client, then server. -/
def exchangeBefore (a b : ExchangeRecord) : Bool :=
  if a.requestedAt.instant ≠ b.requestedAt.instant then
    a.requestedAt.instant < b.requestedAt.instant
  else if a.client ≠ b.client then a.client < b.client
  else a.server ≤ b.server

end Report

end FlowWatch
