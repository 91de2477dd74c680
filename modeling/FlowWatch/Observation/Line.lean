/-
Records as log lines.

Amounts are scaled to a unit that suits their size. Where a line shows a session, bytes are cut to
whole units and a unit is used above five of it; where it shows throughput, bytes have two decimal
places and a unit is used from five of it on.
-/
import FlowWatch.Observation.Counters
import FlowWatch.Observation.Record
import FlowWatch.Text.Rounding
import FlowWatch.Text.Uppercase

set_option autoImplicit false

namespace FlowWatch

open Text

namespace Line

/-- A natural number. -/
def count (n : UInt64) : String := String.ofList (decimal n.toNat)

/-- Microseconds below five thousand, milliseconds below five seconds, else seconds. -/
def scaledTime (us : Int64) : String :=
  let n := us.toInt
  if n < 5000 then String.ofList (signedDecimal n) ++ "(µs)"
  else if n < 5000000 then String.ofList (signedDecimal (n / 1000)) ++ "(ms)"
  else String.ofList (signedDecimal (n / 1000000)) ++ "(s)"

/-- Bytes in whole units. -/
def cutBytes (bytes : UInt64) : String :=
  let n := bytes.toNat
  if n > 5 * Nat.pow 1024 2 then String.ofList (decimal (n / Nat.pow 1024 2)) ++ "MB"
  else if n > 5 * 1024 then String.ofList (decimal (n / 1024)) ++ "KB"
  else String.ofList (decimal n) ++ "B"

/-- Bytes in units with two decimal places. -/
def roundedBytes (bytes : UInt64) : String :=
  let n := bytes.toNat
  let scaled (power : Nat) : String :=
    String.ofList (twoPlaces (roundToDouble n) (Nat.pow 1024 power))
  if n < 5 * 1024 then String.ofList (decimal n) ++ "B"
  else if n < 5 * Nat.pow 1024 2 then scaled 1 ++ "KB"
  else if n < 5 * Nat.pow 1024 3 then scaled 2 ++ "MB"
  else scaled 3 ++ "GB"

/-- Round-trip times, or dashes of minus ones where there is no sample. -/
def rtt : Option RttFigures → String
  | some r =>
    "RTT[syn:" ++ scaledTime r.firstUs ++ "/max:" ++ scaledTime r.maxUs ++ "/min:" ++
      scaledTime r.minUs ++ "/avg:" ++ scaledTime r.avgUs ++ "|" ++ count r.samples ++ "]"
  | none => "RTT[-1/-1/-1](µs)"

/-- A finished session. -/
def session (s : SessionRecord) : String :=
  "[" ++ s.client ++ "->" ++ s.server ++ "] " ++ s.closeReason.label ++ " B/P[tx:" ++
    cutBytes s.forward.bytes ++ "/" ++ count s.forward.packets ++ ", rx:" ++
    cutBytes s.backward.bytes ++ "/" ++ count s.backward.packets ++ "] " ++ rtt s.rtt ++
    ", Duration[" ++ scaledTime s.durationUs ++ "]"

/-- An exchange on a flow from client to server. -/
def exchange (flow : Flow) (e : Exchange) : String :=
  "[" ++ flow.text ++ "] " ++ upper e.protocol ++ " " ++ e.method ++ " " ++ e.host.getD "" ++
    e.target ++ " " ++ String.ofList (decimal e.status.toNat) ++ " " ++
    scaledTime (Span.microseconds e.latency)

/-- The traffic of one reporting interval. -/
def throughput (d : TrafficIncrease) : String :=
  "[" ++ d.interface ++ " STAT] increase TxBytes[" ++ roundedBytes d.increase.txBytes ++
    "], TxPackets[" ++ count d.increase.txPackets ++ "], RxBytes[" ++
    roundedBytes d.increase.rxBytes ++ "], RxPackets[" ++ count d.increase.rxPackets ++ "]"

end Line

end FlowWatch
