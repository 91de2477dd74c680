/-
A session does not see where the sequence numbers of its connection begin.

A session looks at the positions in a segment only to ask its cache: the client's side for the position
after a segment of its own flow, the server's side for a position of the reversed flow. When every flow
has an offset, a segment is moved by the offset of its own flow in its sequence number and by that of
the reversed flow in its acknowledgment, and so both questions are moved with the entries they are
about. The two caches stay twins, and everything else that a turn yields is the same.
-/
import FlowWatch.Proofs.SeqCache.Shift
import FlowWatch.Proofs.Session.Traffic

set_option autoImplicit false

namespace FlowWatch

/-- The segment, with both its positions moved by the offsets of their flows. -/
def Segment.shift (o : Flow → Sequence) (s : Segment) : Segment :=
  { s with seq := s.seq + o s.flow, ack := s.ack + o s.flow.reverse }

variable {o : Flow → Sequence} {c d : SeqCache}

theorem Segment.coveringAck_shift (s : Segment) :
    (s.shift o).coveringAck = s.coveringAck + o s.flow := by
  unfold coveringAck
  show (if s.payload.isEmpty then (s.seq + o s.flow).advance 1
    else (s.seq + o s.flow).advance s.payload.length) = _
  split_ifs
  · exact Sequence.advance_shift _ _ 1
  · exact Sequence.advance_shift _ _ s.payload.length

namespace Side

variable {side : Side} {segment : Segment}

theorem sample_shift (hkey : side.key = segment.flow) (h : SeqCache.Twins o c d)
    (rtt : RoundTrips) :
    ∃ e, side.sample (segment.shift o) d rtt = (e, (side.sample segment c rtt).2) ∧
      SeqCache.Twins o (side.sample segment c rtt).1 e := by
  unfold sample
  rcases side.direction with _ | _
  · have hpoint : (⟨side.key, (segment.shift o).coveringAck⟩ : StreamPoint) =
        StreamPoint.shift o ⟨side.key, segment.coveringAck⟩ := by
      rw [Segment.coveringAck_shift, hkey]
      rfl
    obtain ⟨e, hpush, htwins⟩ := h.push ⟨side.key, segment.coveringAck⟩ segment.seen
    have hseen : (segment.shift o).seen = segment.seen := rfl
    dsimp only
    rw [hpoint, hseen, hpush]
    revert htwins
    rcases c.push ⟨side.key, segment.coveringAck⟩ segment.seen with ⟨c', _ | known⟩
    · exact fun htwins => ⟨e, rfl, htwins⟩
    · exact fun htwins => ⟨e, rfl, htwins⟩
  · have hpoint : (⟨side.key.reverse, (segment.shift o).ack⟩ : StreamPoint) =
        StreamPoint.shift o ⟨side.key.reverse, segment.ack⟩ := by
      rw [hkey]
      rfl
    obtain ⟨e, hpull, htwins⟩ := h.pull ⟨side.key.reverse, segment.ack⟩
    dsimp only
    rw [hpoint, hpull]
    revert htwins
    rcases c.pull ⟨side.key.reverse, segment.ack⟩ with ⟨c', _ | _ | sent⟩
    · exact fun htwins => ⟨e, rfl, htwins⟩
    · exact fun htwins => ⟨e, rfl, htwins⟩
    · exact fun htwins => ⟨e, rfl, htwins⟩

theorem receive_shift (hkey : side.key = segment.flow) (h : SeqCache.Twins o c d)
    (oppositeWaiting : Bool) (rtt : RoundTrips) (counters : Counters) :
    let r := side.receive segment oppositeWaiting ⟨c, rtt, counters⟩
    ∃ e, side.receive (segment.shift o) oppositeWaiting ⟨d, rtt, counters⟩ =
        { r with ledger := { r.ledger with cache := e } } ∧
      SeqCache.Twins o r.ledger.cache e := by
  dsimp only
  unfold receive
  split_ifs with hclosed
  · exact ⟨d, rfl, h⟩
  · obtain ⟨e, hsample, htwins⟩ := sample_shift hkey h rtt
    dsimp only
    rw [hsample]
    exact ⟨e, rfl, htwins⟩

end Side

namespace Session

variable {s : Session} (config : Config) (registry : Registry)

/-- The side a segment is routed to sends on the segment's flow. -/
theorem TwoSided.key_of_route (hs : s.TwoSided) {flow : Flow} {direction : Direction}
    (hroute : s.route flow = some direction) : (s.side direction).key = flow := by
  unfold route at hroute
  split_ifs at hroute with hback hforth
  · rw [← Option.some.inj hroute, hback]
    exact hs.backward_key
  · rw [← Option.some.inj hroute, hforth]
    exact hs.forward_key

theorem receiveOn_shift (hs : s.TwoSided) (h : SeqCache.Twins o c d) (counters : Counters)
    {segment : Segment} {direction : Direction} (hroute : s.route segment.flow = some direction) :
    let out := s.receiveOn config registry c counters direction segment
    ∃ e, s.receiveOn config registry d counters direction (segment.shift o) =
        { out with cache := e } ∧ SeqCache.Twins o out.cache e := by
  have hside : ({ s with lastSeen := max s.lastSeen segment.seen }.side direction).key =
      segment.flow := by
    rw [← hs.key_of_route hroute]
    cases direction <;> rfl
  obtain ⟨e, hreceive, htwins⟩ := Side.receive_shift hside h
    ({ s with lastSeen := max s.lastSeen segment.seen }.side direction.opposite).waitingClose
    s.rtt counters
  refine ⟨e, ?_, htwins⟩
  unfold receiveOn
  dsimp only at hreceive ⊢
  have hseen : (segment.shift o).seen = segment.seen := rfl
  rw [hseen, hreceive]
  rfl

theorem tick_twins (h : SeqCache.Twins o c d) (now : Option Instant) :
    let out := s.tick config c now
    ∃ e, s.tick config d now = { out with cache := e } ∧ SeqCache.Twins o out.cache e := by
  unfold tick
  rcases now with _ | now
  · exact ⟨d, rfl, h⟩
  · obtain ⟨e, hpurge, htwins⟩ := h.purge now
    dsimp only
    rw [hpurge]
    exact ⟨e, rfl, htwins⟩

end Session

namespace Lifecycle

/-- The input, with its segment moved. -/
def Input.shift (o : Flow → Sequence) : Input → Input
  | .segment s => .segment (s.shift o)
  | .tick now => .tick now

variable {l : Lifecycle}

theorem Input.touch_shift (input : Input) : (input.shift o).touch = input.touch := by
  cases input <;> rfl

theorem Input.reason_shift (input : Input) : (input.shift o).reason = input.reason := by
  cases input <;> rfl

theorem Input.isFor_shift (s : Session) (input : Input) :
    (input.shift o).isFor s = input.isFor s := by
  cases input <;> rfl

/-- **Moved positions do not show in a turn.** -/
theorem turn_shift (config : Config) (registry : Registry) (counters : Counters)
    (hl : l.session.TwoSided) (h : SeqCache.Twins o l.cache d) (input : Input) :
    let turn := l.turn config registry counters input
    ∃ e, Lifecycle.turn config registry counters ⟨l.session, d⟩ (input.shift o) =
        { turn with next := ⟨turn.next.session, e⟩ } ∧
      SeqCache.Twins o turn.next.cache e := by
  cases input with
  | segment s =>
    rcases hroute : l.session.route s.flow with _ | direction
    · have hroute' : (Lifecycle.mk l.session d).session.route (s.shift o).flow = none := hroute
      show ∃ e, Lifecycle.turn config registry counters ⟨l.session, d⟩ (.segment (s.shift o)) = _ ∧ _
      rw [turn_of_unrouted config registry counters hroute,
        turn_of_unrouted config registry counters hroute']
      exact ⟨d, rfl, h⟩
    · have hroute' : (Lifecycle.mk l.session d).session.route (s.shift o).flow = some direction :=
        hroute
      obtain ⟨e, hout, htwins⟩ :=
        Session.receiveOn_shift config registry hl h counters hroute
      show ∃ e, Lifecycle.turn config registry counters ⟨l.session, d⟩ (.segment (s.shift o)) = _ ∧ _
      rw [turn_of_routed config registry counters hroute,
        turn_of_routed config registry counters hroute']
      dsimp only
      rw [hout]
      exact ⟨e, rfl, htwins⟩
  | tick now =>
    obtain ⟨e, hout, htwins⟩ := Session.tick_twins config h now (s := l.session)
    refine ⟨e, ?_, htwins⟩
    show Lifecycle.turn config registry counters ⟨l.session, d⟩ (.tick now) = _
    unfold turn
    dsimp only at hout ⊢
    rw [hout]

end Lifecycle

end FlowWatch
