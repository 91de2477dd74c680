/-
TCP segments as the tracker sees them.
-/
import FlowWatch.Flow
import FlowWatch.Time.Instant

set_option autoImplicit false

namespace FlowWatch

/-- The control bits of a segment. -/
structure TcpFlags where
  syn : Bool := false
  ack : Bool := false
  fin : Bool := false
  rst : Bool := false
  psh : Bool := false
  deriving DecidableEq, Repr

namespace TcpFlags

/-- The first segment of a handshake. -/
def isOpening (f : TcpFlags) : Bool := f.syn && !f.ack

/-- The sender is done, or gives up. -/
def isEnding (f : TcpFlags) : Bool := f.fin || f.rst

end TcpFlags

/-- A segment and the instant at which it was seen; at which offset its packet was stamped is not kept.
-/
structure Segment where
  flow : Flow
  flags : TcpFlags
  seq : Sequence
  ack : Sequence
  payload : List UInt8
  seen : Instant
  deriving DecidableEq, Repr

namespace Segment

/-- The acknowledgment that covers this segment. A segment without payload counts as one byte, as
a SYN or FIN does. -/
def coveringAck (s : Segment) : Sequence :=
  if s.payload.isEmpty then s.seq.advance 1 else s.seq.advance s.payload.length

/-- The sender's position after this segment, on its own flow. -/
def expectedAck (s : Segment) : StreamPoint := ⟨s.flow, s.coveringAck⟩

end Segment

end FlowWatch
