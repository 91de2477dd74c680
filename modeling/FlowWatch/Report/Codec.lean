/-
Reports as JSON.

Objects have their members in a fixed order, and an absent value has no member. A timestamp is
written in RFC 3339, so a record whose year has no such form cannot be written, and neither can a
report that holds it.

Reading is the inverse on written reports, and accepts more: members in any order, unknown ones,
null for an absent value, and an array with the values of a record in place of an object.
-/
import FlowWatch.Json.Reader
import FlowWatch.Report

set_option autoImplicit false

namespace FlowWatch

/-! ## Writing -/

namespace Json

/-- An optional member. -/
def optional (name : String) : Option Json → List (String × Json)
  | some v => [(name, v)]
  | none => []

/-- An unsigned word. -/
def word64 (n : UInt64) : Json := natural n.toNat

/-- A signed word. -/
def signed64 (n : Int64) : Json := integer n.toInt

end Json

namespace Stamp

/-- The timestamp as text, if it has a written form. -/
def toJson? (s : Stamp) : Option Json := s.rfc3339?.map .text

end Stamp

namespace Traffic

/-- The object of a direction. -/
def toJson (d : Traffic) : Json :=
  .object [("bytes", .word64 d.bytes), ("packets", .word64 d.packets)]

end Traffic

namespace RttFigures

/-- The object of round-trip times. -/
def toJson (r : RttFigures) : Json :=
  .object [("first_us", .signed64 r.firstUs), ("min_us", .signed64 r.minUs),
    ("max_us", .signed64 r.maxUs), ("avg_us", .signed64 r.avgUs), ("samples", .word64 r.samples)]

end RttFigures

namespace SessionRecord

/-- The object of a session. -/
def toJson? (s : SessionRecord) : Option Json := do
  let firstSeen ← s.firstSeen.toJson?
  let lastSeen ← s.lastSeen.toJson?
  some (.object
    ([("client", .text s.client), ("server", .text s.server),
      ("close_reason", .text s.closeReason.name), ("first_seen", firstSeen),
      ("last_seen", lastSeen), ("duration_us", .signed64 s.durationUs),
      ("forward", s.forward.toJson), ("backward", s.backward.toJson)] ++
      Json.optional "rtt" (s.rtt.map (·.toJson)) ++
      Json.optional "protocol" (s.protocol.map .text) ++
      [("exchanges", .word64 s.exchanges)]))

end SessionRecord

namespace ExchangeRecord

/-- The object of an exchange. -/
def toJson? (e : ExchangeRecord) : Option Json := do
  let requestedAt ← e.requestedAt.toJson?
  some (.object
    ([("client", .text e.client), ("server", .text e.server), ("protocol", .text e.protocol),
      ("method", .text e.method)] ++ Json.optional "host" (e.host.map .text) ++
      [("target", .text e.target), ("status", .natural e.status.toNat),
        ("requested_at", requestedAt), ("latency_us", .signed64 e.latencyUs)]))

end ExchangeRecord

namespace InterfaceTotals

/-- The object of an interface; its counters stand beside the name. -/
def toJson (t : InterfaceTotals) : Json :=
  .object [("interface", .text t.interface), ("tx_bytes", .word64 t.totals.txBytes),
    ("tx_packets", .word64 t.totals.txPackets), ("rx_bytes", .word64 t.totals.rxBytes),
    ("rx_packets", .word64 t.totals.rxPackets)]

end InterfaceTotals

namespace CaptureExtent

/-- The object of a capture. -/
def toJson (c : CaptureExtent) : Json :=
  .object
    ([("packets_total", .word64 c.packetsTotal), ("tcp_segments", .word64 c.tcpSegments)] ++
      Json.optional "time_start" (c.timeStart.map .text) ++
      Json.optional "time_end" (c.timeEnd.map .text))

end CaptureExtent

namespace Report

/-- The object of a report. -/
def toJson? (r : Report) : Option Json := do
  let sessions ← r.sessions.mapM (·.toJson?)
  let exchanges ← r.exchanges.mapM (·.toJson?)
  some (.object
    ([("report_version", .natural r.reportVersion.toNat),
      ("tool", .object [("name", .text r.tool.name), ("version", .text r.tool.version)]),
      ("generated_at", .text r.generatedAt),
      ("input", .object [("path", .text r.input.path), ("bytes", .word64 r.input.bytes)])] ++
      Json.optional "capture_summary" (r.captureSummary.map (·.toJson)) ++
      [("sessions", .array sessions), ("exchanges", .array exchanges),
        ("throughput", .array (r.throughput.map (·.toJson)))]))

/-- The text of a report. -/
def render? (layout : Json.Layout) (r : Report) : Option String :=
  r.toJson?.map (·.render layout)

end Report

/-! ## Reading -/

namespace Json

/-- A record's values by name. `members` is absent for an array, whose values are all there and
stand in order. -/
def fields? (names : List String) : Json → Option (List (Option Json))
  | .object members =>
    -- A known member may stand there only once; unknown ones do not matter.
    if names.any fun name => 1 < (members.filter (·.1 == name)).length then none
    else some (names.map fun name => (members.find? (·.1 == name)).map (·.2))
  | .array items => if items.length == names.length then some (items.map some) else none
  | _ => none

/-- A text. -/
def text? : Json → Option String
  | .text s => some s
  | _ => none

/-- A natural number up to `limit`. -/
def natural? (limit : Nat) : Json → Option Nat
  | .number (.integer n) => if 0 ≤ n && n ≤ limit then some n.toNat else none
  | _ => none

/-- An unsigned word. -/
def word64? (v : Json) : Option UInt64 := (v.natural? 18446744073709551615).map UInt64.ofNat

/-- A signed word. -/
def signed64? : Json → Option Int64
  | .number (.integer n) => if int64Min ≤ n && n ≤ int64Max then some (Int64.ofInt n) else none
  | _ => none

/-- The items of an array. -/
def items? : Json → Option (List Json)
  | .array items => some items
  | _ => none

/-- A value that may be absent: no member, or null. -/
def absentOr {α : Type} (read : Json → Option α) : Option Json → Option (Option α)
  | none => some none
  | some .null => some none
  | some v => (read v).map some

end Json

namespace Stamp

/-- Reads a timestamp. -/
def ofJson? (v : Json) : Option Stamp := v.text? >>= ofRfc3339?

end Stamp

namespace CloseReason

/-- Reads a reason: its name, or an object with the name for its only member and null in it. -/
def ofJson? : Json → Option CloseReason
  | .text s => ofName? s
  | .object [(s, .null)] => ofName? s
  | _ => none

end CloseReason

namespace Traffic

/-- Reads a direction. -/
def ofJson? (v : Json) : Option Traffic := do
  match ← v.fields? ["bytes", "packets"] with
  | [some bytes, some packets] => some ⟨← bytes.word64?, ← packets.word64?⟩
  | _ => none

end Traffic

namespace RttFigures

/-- Reads round-trip times. -/
def ofJson? (v : Json) : Option RttFigures := do
  match ← v.fields? ["first_us", "min_us", "max_us", "avg_us", "samples"] with
  | [some first, some min, some max, some avg, some samples] =>
    some ⟨← first.signed64?, ← min.signed64?, ← max.signed64?, ← avg.signed64?, ← samples.word64?⟩
  | _ => none

end RttFigures

namespace SessionRecord

/-- The members of a session. -/
def fieldNames : List String :=
  ["client", "server", "close_reason", "first_seen", "last_seen", "duration_us", "forward",
    "backward", "rtt", "protocol", "exchanges"]

/-- Reads a session. -/
def ofJson? (v : Json) : Option SessionRecord := do
  match ← v.fields? fieldNames with
  | [some client, some server, some reason, some first, some last, some duration, some forward,
      some backward, rtt, protocol, some exchanges] =>
    some {
      client := ← client.text?
      server := ← server.text?
      closeReason := ← CloseReason.ofJson? reason
      firstSeen := ← Stamp.ofJson? first
      lastSeen := ← Stamp.ofJson? last
      durationUs := ← duration.signed64?
      forward := ← Traffic.ofJson? forward
      backward := ← Traffic.ofJson? backward
      rtt := ← Json.absentOr RttFigures.ofJson? rtt
      protocol := ← Json.absentOr Json.text? protocol
      exchanges := ← exchanges.word64? }
  | _ => none

end SessionRecord

namespace ExchangeRecord

/-- The members of an exchange. -/
def fieldNames : List String :=
  ["client", "server", "protocol", "method", "host", "target", "status", "requested_at",
    "latency_us"]

/-- Reads an exchange. -/
def ofJson? (v : Json) : Option ExchangeRecord := do
  match ← v.fields? fieldNames with
  | [some client, some server, some protocol, some method, host, some target, some status,
      some requested, some latency] =>
    some {
      client := ← client.text?
      server := ← server.text?
      protocol := ← protocol.text?
      method := ← method.text?
      host := ← Json.absentOr Json.text? host
      target := ← target.text?
      status := UInt16.ofNat (← status.natural? 65535)
      requestedAt := ← Stamp.ofJson? requested
      latencyUs := ← latency.signed64? }
  | _ => none

end ExchangeRecord

namespace InterfaceTotals

/-- Reads an interface; only an object can have its counters beside the name. -/
def ofJson? (v : Json) : Option InterfaceTotals := do
  match v with
  | .object _ =>
    match ← v.fields? ["interface", "tx_bytes", "tx_packets", "rx_bytes", "rx_packets"] with
    | [some interface, some txb, some txp, some rxb, some rxp] =>
      some ⟨← interface.text?, ⟨← txb.word64?, ← txp.word64?, ← rxb.word64?, ← rxp.word64?⟩⟩
    | _ => none
  | _ => none

end InterfaceTotals

namespace CaptureExtent

/-- Reads a capture. -/
def ofJson? (v : Json) : Option CaptureExtent := do
  match ← v.fields? ["packets_total", "tcp_segments", "time_start", "time_end"] with
  | [some packets, some segments, start, stop] =>
    some ⟨← packets.word64?, ← segments.word64?, ← Json.absentOr Json.text? start,
      ← Json.absentOr Json.text? stop⟩
  | _ => none

end CaptureExtent

namespace Tool

/-- Reads a tool. -/
def ofJson? (v : Json) : Option Tool := do
  match ← v.fields? ["name", "version"] with
  | [some name, some version] => some ⟨← name.text?, ← version.text?⟩
  | _ => none

end Tool

namespace Input

/-- Reads an input. -/
def ofJson? (v : Json) : Option Input := do
  match ← v.fields? ["path", "bytes"] with
  | [some path, some bytes] => some ⟨← path.text?, ← bytes.word64?⟩
  | _ => none

end Input

namespace Report

/-- The members of a report. -/
def fieldNames : List String :=
  ["report_version", "tool", "generated_at", "input", "capture_summary", "sessions", "exchanges",
    "throughput"]

/-- Reads a report. -/
def ofJson? (v : Json) : Option Report := do
  match ← v.fields? fieldNames with
  | [some version, some tool, some generated, some input, capture, some sessions, some exchanges,
      some throughput] =>
    some {
      reportVersion := UInt32.ofNat (← version.natural? 4294967295)
      tool := ← Tool.ofJson? tool
      generatedAt := ← generated.text?
      input := ← Input.ofJson? input
      captureSummary := ← Json.absentOr CaptureExtent.ofJson? capture
      sessions := ← (← sessions.items?).mapM SessionRecord.ofJson?
      exchanges := ← (← exchanges.items?).mapM ExchangeRecord.ofJson?
      throughput := ← (← throughput.items?).mapM InterfaceTotals.ofJson? }
  | _ => none

/-- Reads the text of a report. -/
def parse? (s : String) : Option Report :=
  match Json.parse s with
  | .ok v => ofJson? v
  | .error _ => none

end Report

end FlowWatch
