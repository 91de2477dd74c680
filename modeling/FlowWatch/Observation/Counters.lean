/-
Byte and packet counters.

Interface counters are 64-bit words that wrap. A traffic report is the increase between two
snapshots; a counter that went back counts as no increase.
-/
set_option autoImplicit false

namespace FlowWatch

/-- The direction of a segment with regard to the client of its session. -/
inductive Direction where
  | clientToServer
  | serverToClient
  deriving DecidableEq, Repr

namespace Direction

/-- Both directions in order. -/
def all : List Direction := [.clientToServer, .serverToClient]

/-- The place of a direction in that order. -/
def index : Direction → Nat
  | .clientToServer => 0
  | .serverToClient => 1

/-- The opposite direction. -/
def opposite : Direction → Direction
  | .clientToServer => .serverToClient
  | .serverToClient => .clientToServer

/-- The short name. -/
def text : Direction → String
  | .clientToServer => "c2s"
  | .serverToClient => "s2c"

end Direction

/-- The totals of one interface; `tx` is from clients to servers. -/
structure Counters where
  txBytes : UInt64 := 0
  txPackets : UInt64 := 0
  rxBytes : UInt64 := 0
  rxPackets : UInt64 := 0
  deriving DecidableEq, Repr

namespace Counters

/-- Counts one packet of the given payload length. -/
def add (c : Counters) (direction : Direction) (bytes : UInt64) : Counters :=
  match direction with
  | .clientToServer => { c with txBytes := c.txBytes + bytes, txPackets := c.txPackets + 1 }
  | .serverToClient => { c with rxBytes := c.rxBytes + bytes, rxPackets := c.rxPackets + 1 }

/-- The difference of two counts, or zero if it would be negative. -/
def increase (now before : UInt64) : UInt64 := if before ≤ now then now - before else 0

/-- The increase of every counter since `earlier`. -/
def since (now earlier : Counters) : Counters where
  txBytes := increase now.txBytes earlier.txBytes
  txPackets := increase now.txPackets earlier.txPackets
  rxBytes := increase now.rxBytes earlier.rxBytes
  rxPackets := increase now.rxPackets earlier.rxPackets

end Counters

/-- The increase of an interface's counters over one reporting interval. -/
structure TrafficIncrease where
  interface : String
  increase : Counters
  interval : Int
  deriving DecidableEq, Repr

namespace TrafficIncrease

/-- The reports for successive snapshots, the first one counted from zero. -/
def ofSnapshots (interface : String) (interval : Int) (previous : Counters) :
    List Counters → List TrafficIncrease
  | [] => []
  | now :: later =>
    ⟨interface, now.since previous, interval⟩ :: ofSnapshots interface interval now later

end TrafficIncrease

end FlowWatch
