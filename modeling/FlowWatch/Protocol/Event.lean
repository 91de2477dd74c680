/-
What is seen of an application protocol: requests, responses, and exchanges.

An event is one message as a decoder understood it, with the time of its payload. A request and
the response to it make an exchange, whose latency is the difference of the two times and may be
negative when a capture is out of order.
-/
import FlowWatch.Time.Instant

set_option autoImplicit false

namespace FlowWatch

/-- A request seen by a decoder. -/
structure SeenRequest where
  protocol : String
  method : String
  target : String
  host : Option String
  seen : Instant
  deriving DecidableEq, Repr

/-- A response seen by a decoder. -/
structure SeenResponse where
  protocol : String
  status : UInt16
  reason : String
  seen : Instant
  deriving DecidableEq, Repr

/-- What a decoder made of a payload it accepts. -/
inductive AppEvent where
  | unknown
  | request (request : SeenRequest)
  | response (response : SeenResponse)
  deriving DecidableEq, Repr

/-- A request paired with its response. -/
structure Exchange where
  protocol : String
  method : String
  host : Option String
  target : String
  status : UInt16
  requestedAt : Instant
  latency : Span
  deriving DecidableEq, Repr

namespace Exchange

/-- The pair of a request and the response to it. -/
def ofPair (request : SeenRequest) (response : SeenResponse) : Exchange where
  protocol := request.protocol
  method := request.method
  host := request.host
  target := request.target
  status := response.status
  requestedAt := request.seen
  latency := response.seen - request.seen

end Exchange

end FlowWatch
