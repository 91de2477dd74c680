/-
What the engine reports while it runs.

Finished sessions and exchanges are records for whoever listens. The other notices are about the
engine itself: which decoders it called, how its pool grew, and what a maintenance tick found.
-/
import FlowWatch.Observation.Counters
import FlowWatch.Observation.Record

set_option autoImplicit false

namespace FlowWatch

open Text

/-- The figures of a session pool. -/
structure PoolFigures where
  slots : Nat
  free : Nat
  active : Nat
  /-- Sessions opened so far. -/
  allocations : Nat
  deriving DecidableEq, Repr

/-- One thing the engine reports. -/
inductive Notice where
  /-- A session has been closed. -/
  | sessionClosed (summary : SessionRecord)
  /-- A session on the flow has paired a request and a response. -/
  | exchange (flow : Flow) (exchange : Exchange)
  /-- A decoder has been called. -/
  | decoderCalled (name : String)
  /-- The pool has grown. -/
  | poolGrew (before after : Nat)
  /-- The pool has opened another round of sessions. -/
  | poolStatistics (stats : PoolFigures)
  /-- The traffic of a session in one direction: since the last tick, and in all. -/
  | sessionTraffic (flow : Flow) (direction : Direction) (delta total : Traffic)
  /-- A tick has dropped expired cache entries. -/
  | cachePurged (flow : Flow) (entries : Nat)
  deriving DecidableEq, Repr

namespace Notice

/-- The summary of a closed session. -/
def summary? : Notice → Option SessionRecord
  | .sessionClosed s => some s
  | _ => none

/-- The record of an exchange. -/
def exchange? : Notice → Option ExchangeRecord
  | .exchange flow e => some (.of flow e)
  | _ => none

/-- The name of a called decoder. -/
def decoder? : Notice → Option String
  | .decoderCalled name => some name
  | _ => none

/-- The log line about the pool. -/
def poolLine? : Notice → Option String
  | .poolGrew before after =>
    some (String.ofList ("session pool grew from ".toList ++ decimal before ++ " to ".toList ++
      decimal after ++ " slots".toList))
  | .poolStatistics s =>
    some (String.ofList ("session pool: ".toList ++ decimal s.allocations ++
      " allocations, ".toList ++ decimal s.slots ++ " slots, ".toList ++ decimal s.free ++
      " free, ".toList ++ decimal s.active ++ " active".toList))
  | _ => none

/-- The log line of a tick. -/
def tickLine? : Notice → Option String
  | .sessionTraffic flow direction delta total =>
    some ("[" ++ flow.text ++ "] " ++ direction.text ++ " B/P[" ++
      String.ofList (decimal delta.bytes.toNat) ++ "/" ++
      String.ofList (decimal delta.packets.toNat) ++ "] total B/P[" ++
      String.ofList (decimal total.bytes.toNat) ++ "/" ++
      String.ofList (decimal total.packets.toNat) ++ "]")
  | .cachePurged flow entries =>
    some ("[" ++ flow.text ++ "] purged " ++ String.ofList (decimal entries) ++
      " expired cache entries")
  | _ => none

/-- Whether the notice is about a direction without traffic since the last tick. -/
def isIdleTraffic : Notice → Bool
  | .sessionTraffic _ _ delta _ => delta.bytes == 0 && delta.packets == 0
  | _ => false

end Notice

end FlowWatch
