/-
One side of a session.

A side counts the segments its endpoint sends and remembers whether that endpoint has terminated.
The client's side writes the sequence cache and the server's side reads it: an acknowledgment that
answers a known send gives a round-trip sample.
-/
import FlowWatch.Segment
import FlowWatch.SeqCache.Basic
import FlowWatch.RoundTrips
import FlowWatch.Observation.Counters
import FlowWatch.Observation.Record

set_option autoImplicit false

namespace FlowWatch

/-- The state of one side; `key` is the flow of its segments. -/
structure Side where
  direction : Direction
  key : Flow
  closed : Bool := false
  waitingClose : Bool := false
  bytes : UInt64 := 0
  packets : UInt64 := 0
  prevBytes : UInt64 := 0
  prevPackets : UInt64 := 0
  deriving DecidableEq, Repr

/-- What both sides of a session share. -/
structure Ledger where
  cache : SeqCache
  rtt : RoundTrips
  counters : Counters

/-- What a side makes of a segment: `finish` once both sides have terminated, `inspect` if the
payload should be shown to the decoders. -/
structure Reception where
  side : Side
  ledger : Ledger
  finish : Bool
  inspect : Bool

namespace Side

/-- A side without traffic. -/
def new (direction : Direction) (key : Flow) : Side := { direction := direction, key := key }

/-- The side after its session has closed. -/
def close (side : Side) : Side := { side with closed := true }

/-- The traffic so far. -/
def total (side : Side) : Traffic := ⟨side.bytes, side.packets⟩

/-- The traffic since the last call, and the side that remembers this one. -/
def takeDelta (side : Side) : Side × Traffic :=
  ({ side with prevBytes := side.bytes, prevPackets := side.packets },
    ⟨side.bytes - side.prevBytes, side.packets - side.prevPackets⟩)

/-- Counts a segment and notes a termination. -/
def account (side : Side) (s : Segment) : Side :=
  { side with
    waitingClose := side.waitingClose || s.flags.isEnding
    bytes := side.bytes + UInt64.ofNat s.payload.length
    packets := side.packets + 1 }

/-- Writes the cache on the client's side and reads it on the server's; the last component says
whether the cache has answered. -/
def sample (side : Side) (s : Segment) (cache : SeqCache) (rtt : RoundTrips) :
    SeqCache × RoundTrips × Bool :=
  match side.direction with
  | .clientToServer =>
    match cache.push ⟨side.key, s.coveringAck⟩ s.seen with
    | (cache, .error _) => (cache, rtt, false)
    | (cache, .ok _) => (cache, rtt, true)
  | .serverToClient =>
    match cache.pull ⟨side.key.reverse, s.ack⟩ with
    | (cache, .error _) => (cache, rtt, false)
    | (cache, .ok none) => (cache, rtt, true)
    | (cache, .ok (some sent)) => (cache, rtt.add (s.seen - sent), true)

/-- Takes in a segment of this side; `oppositeWaiting` says that the other side has already
terminated. A closed side ignores the segment, and a cache that refuses keeps it from inspection.
-/
def receive (side : Side) (s : Segment) (oppositeWaiting : Bool) (ledger : Ledger) : Reception :=
  if side.closed then ⟨side, ledger, false, false⟩
  else
    let ⟨cache, rtt, counters⟩ := ledger
    -- Traffic is counted whatever the cache answers.
    let counters := counters.add side.direction (UInt64.ofNat s.payload.length)
    let (cache, rtt, isAnswered) := side.sample s cache rtt
    ⟨side.account s, ⟨cache, rtt, counters⟩, s.flags.isEnding && oppositeWaiting,
      isAnswered && !s.payload.isEmpty⟩

end Side

end FlowWatch
