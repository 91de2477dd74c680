/-
Flows: who sends to whom.

A flow is directed. The two directions of one connection are a flow and its reversal, and a flow
from an endpoint to itself is its own reversal.
-/
import FlowWatch.Address
import FlowWatch.Sequence

set_option autoImplicit false

namespace FlowWatch

open Text

/-- Source and destination endpoints of a segment. -/
structure Flow where
  src : Address
  srcPort : UInt16
  dst : Address
  dstPort : UInt16
  deriving DecidableEq, Hashable, Repr

namespace Flow

/-- The same connection seen from the other side. -/
def reverse (f : Flow) : Flow := ⟨f.dst, f.dstPort, f.src, f.srcPort⟩

@[simp] theorem reverse_reverse (f : Flow) : f.reverse.reverse = f := rfl

/-- The sending endpoint. -/
def sender (f : Flow) : String := String.ofList (f.src.endpoint f.srcPort)

/-- The receiving endpoint. -/
def receiver (f : Flow) : String := String.ofList (f.dst.endpoint f.dstPort)

/-- Both endpoints with an arrow between them. -/
def text (f : Flow) : String := f.sender ++ "->" ++ f.receiver

end Flow

/-- A position in the byte stream of one flow. -/
structure StreamPoint where
  flow : Flow
  seq : Sequence
  deriving DecidableEq, Hashable, Repr

namespace StreamPoint

/-- The flow and the position in brackets. -/
def text (p : StreamPoint) : String :=
  p.flow.text ++ " [" ++ String.ofList (decimal p.seq.toNat) ++ "]"

end StreamPoint

end FlowWatch
