/-
Sessions: the life of one connection.

A session is opened under the flow of its first segment, whose sender is the client. It routes
each segment to one of its sides, shows payloads to the decoders until the protocol is known, and
pairs requests with responses. A session finishes with the segment that completes the termination
of both directions, or it is closed from outside.
-/
import FlowWatch.Protocol.Registry
import FlowWatch.Config.Basic
import FlowWatch.Session.Side
import FlowWatch.Observation.Notice

set_option autoImplicit false

namespace FlowWatch

/-- What is known about the application protocol. -/
inductive ProtocolState where
  | unknown
  /-- The decoder has seen a request, but no exchange is complete yet. -/
  | tentative (name : String)
  /-- The decoder has seen an exchange. -/
  | confirmed (name : String)
  deriving DecidableEq, Repr

namespace ProtocolState

/-- The name of the decoder, once there is one. -/
def name? : ProtocolState → Option String
  | .unknown => none
  | .tentative name => some name
  | .confirmed name => some name

end ProtocolState

/-- A session. -/
structure Session where
  key : Flow
  firstSeen : Instant
  lastSeen : Instant
  forward : Side
  backward : Side
  rtt : RoundTrips := {}
  protocolState : ProtocolState := .unknown
  /-- The payloads inspected since the last exchange, in a 32-bit word. -/
  inspected : UInt32 := 0
  pendingRequest : Option SeenRequest := none
  exchanges : UInt64 := 0
  deriving DecidableEq, Repr

namespace Session

/-- A session without segments. -/
def new (key : Flow) (now : Instant) : Session where
  key := key
  firstSeen := now
  lastSeen := now
  forward := .new .clientToServer key
  backward := .new .serverToClient key.reverse

/-- The direction of a flow in this session. The reversal is looked at first, so a flow from an
endpoint to itself runs from server to client. -/
def route (s : Session) (flow : Flow) : Option Direction :=
  if flow = s.key.reverse then some .serverToClient
  else if flow = s.key then some .clientToServer
  else none

/-- The side that sends in a direction. -/
def side (s : Session) : Direction → Side
  | .clientToServer => s.forward
  | .serverToClient => s.backward

/-- The session with one side replaced. -/
def setSide (s : Session) (h : Side) : Direction → Session
  | .clientToServer => { s with forward := h }
  | .serverToClient => { s with backward := h }

/-! ## Inspection -/

/-- The decoders a payload is offered to. -/
inductive Audience where
  | all
  | only (name : String)
  deriving DecidableEq, Repr

/-- Who sees the next payload, if anybody. -/
def audience? (s : Session) (config : Config) (registry : Registry) : Option Audience :=
  match s.protocolState with
  | .unknown => if s.inspected ≤ config.maxInspectedSegments then some .all else none
  | .tentative name => some (.only name)
  | .confirmed name => if registry.refines name then some (.only name) else none

/-- Asks the audience about a payload. -/
def Audience.ask (registry : Registry) (payload : List UInt8) (seen : Instant) :
    Audience → Verdict
  | .all => registry.offer payload seen
  | .only name => registry.offerTo name payload seen

/-- Takes in an event of the decoder `name`. A request replaces the pending one. A response
completes the pending request to an exchange and is ignored without one. -/
def absorb (s : Session) (name : String) : AppEvent → Session × List Notice
  | .unknown => (s, [])
  | .request request =>
    -- The first request names the protocol; later ones only replace the pending request.
    let protocolState := match s.protocolState with
      | .unknown => .tentative name
      | known => known
    ({ s with pendingRequest := some request, protocolState := protocolState }, [])
  | .response response =>
    match s.pendingRequest with
    | none => (s, [])
    | some request =>
      ({ s with
          pendingRequest := none
          exchanges := s.exchanges + 1
          protocolState := .confirmed name
          inspected := 0 },
        [.exchange s.key (.ofPair request response)])

/-- Shows a payload to the decoders that are due. -/
def inspect (s : Session) (config : Config) (registry : Registry) (payload : List UInt8)
    (seen : Instant) : Session × List Notice :=
  match s.audience? config registry with
  | none => (s, [])
  | some audience =>
    let verdict := audience.ask registry payload seen
    let calls := verdict.called.map Notice.decoderCalled
    -- A payload counts as inspected even if every decoder refuses it.
    let s := { s with inspected := s.inspected + 1 }
    match verdict.event with
    | none => (s, calls)
    | some (name, event) =>
      let (s, notices) := s.absorb name event
      (s, calls ++ notices)

/-! ## Segments and ticks -/

/-- What a session makes of a segment. -/
structure Outcome where
  session : Session
  cache : SeqCache
  counters : Counters
  finish : Bool
  notices : List Notice

/-- Handles a segment of the given direction. -/
def receiveOn (s : Session) (config : Config) (registry : Registry) (cache : SeqCache)
    (counters : Counters) (direction : Direction) (segment : Segment) : Outcome :=
  -- Segments may be out of order, so the last activity is the latest time and not the newest one.
  let s := { s with lastSeen := max s.lastSeen segment.seen }
  let step := (s.side direction).receive segment (s.side direction.opposite).waitingClose
    ⟨cache, s.rtt, counters⟩
  let s := { s.setSide step.side direction with rtt := step.ledger.rtt }
  let (s, notices) :=
    if step.inspect then s.inspect config registry segment.payload segment.seen else (s, [])
  ⟨s, step.ledger.cache, step.ledger.counters, step.finish, notices⟩

/-- Whether the last activity lies further back than the timeout. A timeout that reaches beyond
the representable range never passes. -/
def isIdle (lastSeen now : Instant) (timeout : Span) : Bool :=
  Instant.isRepresentable (now - timeout) && lastSeen < now - timeout

/-- What a session makes of a maintenance tick. -/
structure Upkeep where
  session : Session
  cache : SeqCache
  idle : Bool
  notices : List Notice

/-- A maintenance tick at the capture time `now`, which is absent before the first segment:
reports the traffic since the last tick, drops expired cache entries, and says whether the session
is idle. -/
def tick (s : Session) (config : Config) (cache : SeqCache) (now : Option Instant) : Upkeep :=
  let (forward, forwardDelta) := s.forward.takeDelta
  let (backward, backwardDelta) := s.backward.takeDelta
  let s := { s with forward := forward, backward := backward }
  let traffic : List Notice :=
    [.sessionTraffic s.key .clientToServer forwardDelta forward.total,
      .sessionTraffic s.key .serverToClient backwardDelta backward.total]
  match now with
  | none => ⟨s, cache, false, traffic⟩
  | some now =>
    let (cache, purged) := cache.purge now
    let notices := if 0 < purged then traffic ++ [.cachePurged s.key purged] else traffic
    ⟨s, cache, isIdle s.lastSeen now config.idleTimeout, notices⟩

/-! ## Summary -/

/-- The record of the session when it is closed. Its times are written in UTC, which is how they were
stamped if the source is in UTC. -/
def summary (s : Session) (reason : CloseReason) : SessionRecord where
  client := s.key.sender
  server := s.key.receiver
  closeReason := reason
  firstSeen := .utc s.firstSeen
  lastSeen := .utc s.lastSeen
  durationUs := Span.microseconds (s.lastSeen - s.firstSeen)
  forward := s.forward.total
  backward := s.backward.total
  rtt := s.rtt.summary
  protocol := s.protocolState.name?
  exchanges := s.exchanges

end Session

end FlowWatch
