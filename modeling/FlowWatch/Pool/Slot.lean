/-
Slots and handles.

A slot holds at most one session at a time and is used again and again. Opening a session gives
the slot a fresh generation, and a handle carries the generation it was issued for, so a handle
from an earlier session can never feed a later one.
-/
import FlowWatch.Session.Basic

set_option autoImplicit false

namespace FlowWatch

/-- Where a slot stands in its life. -/
inductive Phase where
  /-- Never used. -/
  | allocated
  /-- Holds a session. -/
  | open (session : Session)
  /-- The last session has begun to close or is gone. -/
  | closed
  deriving DecidableEq, Repr

/-- One slot. `owner` is the generation the pool has given the slot to and not yet taken back;
`lastSeen` is the newest activity, held in a signed 64-bit word. -/
structure Slot where
  phase : Phase
  generation : Nat
  owner : Option Nat
  lastSeen : Int
  cache : SeqCache

namespace Slot

/-- A slot that was never used. -/
def fresh (maxAge : Option Span) : Slot := ⟨.allocated, 0, none, int64Min, .new maxAge⟩

/-- The session in the slot, if it is open. -/
def session? (s : Slot) : Option Session :=
  match s.phase with
  | .open session => some session
  | _ => none

/-- Whether the slot holds a session. -/
def isOpen (s : Slot) : Bool := s.session?.isSome

/-- Starts the session of a generation. -/
def openWith (s : Slot) (key : Flow) (now : Instant) (generation : Nat) : Slot where
  phase := .open (.new key now)
  generation := generation
  owner := some generation
  lastSeen := clampInt64 now
  cache := s.cache.reopen

/-- Notes activity. -/
def touch (s : Slot) (seen : Instant) : Slot :=
  { s with lastSeen := max s.lastSeen (clampInt64 seen) }

/-! ## Segments and ticks -/

/-- What the session in a slot leaves behind: the counters of the interface, and whether the
session is done. -/
structure Effect where
  counters : Counters
  notices : List Notice
  done : Bool

/-- Hands a segment to the session, if there is one and the segment belongs to it. -/
def receive (s : Slot) (config : Config) (registry : Registry) (counters : Counters)
    (segment : Segment) : Slot × Option Effect :=
  let ⟨phase, generation, owner, lastSeen, cache⟩ := s
  match phase with
  | .open session =>
    match session.route segment.flow with
    | none => (⟨.open session, generation, owner, lastSeen, cache⟩, none)
    | some direction =>
      let out := session.receiveOn config registry cache counters direction segment
      (touch ⟨.open out.session, generation, owner, lastSeen, out.cache⟩ segment.seen,
        some ⟨out.counters, out.notices, out.finish⟩)
  | phase => (⟨phase, generation, owner, lastSeen, cache⟩, none)

/-- A maintenance tick of the session, if there is one. -/
def tick (s : Slot) (config : Config) (counters : Counters) (now : Option Instant) :
    Slot × Option Effect :=
  let ⟨phase, generation, owner, lastSeen, cache⟩ := s
  match phase with
  | .open session =>
    let out := session.tick config cache now
    (⟨.open out.session, generation, owner, lastSeen, out.cache⟩,
      some ⟨counters, out.notices, out.idle⟩)
  | phase => (⟨phase, generation, owner, lastSeen, cache⟩, none)

end Slot

/-- A producer's claim on one session of a slot. -/
structure Handle where
  slot : Nat
  generation : Nat
  key : Flow
  deriving DecidableEq, Repr

/-- Why a handle is refused. -/
inductive HandleRefusal where
  | closed
  | stale
  deriving DecidableEq, Repr

namespace HandleRefusal

/-- The refusal in words. -/
def message : HandleRefusal → String
  | .closed => "session is closed"
  | .stale => "session handle refers to a previous connection"

end HandleRefusal

/-- What can be seen of an open session from outside. -/
structure OpenSession where
  key : Flow
  firstSeen : Instant
  lastSeen : Instant
  deriving DecidableEq, Repr

end FlowWatch
