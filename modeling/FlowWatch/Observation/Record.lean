/-
The records that the engine delivers: finished sessions and exchanges.
-/
import FlowWatch.Protocol.Event
import FlowWatch.Flow
import FlowWatch.RoundTrips
import FlowWatch.Time.Stamp

set_option autoImplicit false

namespace FlowWatch

/-- Why a session was closed. -/
inductive CloseReason where
  /-- Both directions have terminated. -/
  | finish
  /-- No activity for longer than the idle timeout. -/
  | timeout
  /-- Closed on request. -/
  | flush
  deriving DecidableEq, Repr

namespace CloseReason

/-- All reasons in order. -/
def all : List CloseReason := [.finish, .timeout, .flush]

/-- The reason in a log line. -/
def label : CloseReason → String
  | .finish => "FINISH"
  | .timeout => "TIMEOUT FINISH"
  | .flush => "FLUSH"

/-- The reason in a report. -/
def name : CloseReason → String
  | .finish => "finish"
  | .timeout => "timeout"
  | .flush => "flush"

/-- The reason of a report. -/
def ofName? (s : String) : Option CloseReason := all.find? (·.name == s)

end CloseReason

/-- Traffic in one direction. -/
structure Traffic where
  bytes : UInt64 := 0
  packets : UInt64 := 0
  deriving DecidableEq, Repr

/-- A finished session; `forward` is from the client to the server. -/
structure SessionRecord where
  client : String
  server : String
  closeReason : CloseReason
  firstSeen : Stamp
  lastSeen : Stamp
  durationUs : Int64
  forward : Traffic
  backward : Traffic
  rtt : Option RttFigures
  protocol : Option String
  exchanges : UInt64
  deriving DecidableEq, Repr

/-- A request and its response. -/
structure ExchangeRecord where
  client : String
  server : String
  protocol : String
  method : String
  host : Option String
  target : String
  status : UInt16
  requestedAt : Stamp
  latencyUs : Int64
  deriving DecidableEq, Repr

namespace ExchangeRecord

/-- The record of an exchange on a flow from client to server; its time is written in UTC. -/
def of (flow : Flow) (e : Exchange) : ExchangeRecord where
  client := flow.sender
  server := flow.receiver
  protocol := e.protocol
  method := e.method
  host := e.host
  target := e.target
  status := e.status
  requestedAt := .utc e.requestedAt
  latencyUs := Span.microseconds e.latency

end ExchangeRecord

end FlowWatch
