/-
What a session counts.

Each side of a session counts the segments of its direction, in bytes and in packets, and the
interface counts the same segments in the same direction. The counters are 64-bit words that wrap, so
traffic is added up as they do: `Traffic` is a commutative monoid, and every statement here is an
equation in it.

A segment has a direction in a session by its flow alone. What one segment does is said once
(`receiveOn_of_twoSided`), and what a lifecycle has counted in the end is the traffic of the segments
it was fed (`total_replay`).
-/
import FlowWatch.Proofs.Session.Lifecycle
import Mathlib.Algebra.GroupWithZero.Nat

set_option autoImplicit false

namespace FlowWatch

/-! ## Adding traffic up -/

namespace Traffic

instance : Add Traffic := ⟨fun a b => ⟨a.bytes + b.bytes, a.packets + b.packets⟩⟩

instance : Zero Traffic := ⟨⟨0, 0⟩⟩

theorem add_def (a b : Traffic) : a + b = ⟨a.bytes + b.bytes, a.packets + b.packets⟩ := rfl

instance : AddCommMonoid Traffic where
  add_assoc a b c := by simp only [add_def, UInt64.add_assoc]
  zero_add a := congrArg₂ Traffic.mk (UInt64.zero_add _) (UInt64.zero_add _)
  add_zero a := congrArg₂ Traffic.mk (UInt64.add_zero _) (UInt64.add_zero _)
  add_comm a b := by simp only [add_def, UInt64.add_comm]
  nsmul := nsmulRec

/-- The traffic of a list of segments: the length of their payloads, and their number. -/
def ofSegments (segments : List Segment) : Traffic :=
  ⟨UInt64.ofNat (segments.map (·.payload.length)).sum, UInt64.ofNat segments.length⟩

theorem ofSegments_append (ss ts : List Segment) :
    ofSegments (ss ++ ts) = ofSegments ss + ofSegments ts := by
  unfold ofSegments
  rw [add_def, List.map_append, List.sum_append, List.length_append, UInt64.ofNat_add,
    UInt64.ofNat_add]

end Traffic

/-- What the interface has counted in a direction. -/
def Counters.traffic (c : Counters) : Direction → Traffic
  | .clientToServer => ⟨c.txBytes, c.txPackets⟩
  | .serverToClient => ⟨c.rxBytes, c.rxPackets⟩

theorem Counters.traffic_add (c : Counters) (d e : Direction) (s : Segment) :
    (c.add d (UInt64.ofNat s.payload.length)).traffic e =
      c.traffic e + Traffic.ofSegments (if d = e then [s] else []) := by
  cases d <;> cases e
  · rfl
  · exact (add_zero _).symm
  · exact (add_zero _).symm
  · rfl

/-- A side that is open counts the segment, whatever the cache answers. -/
theorem Side.receive_of_open {side : Side} (h : side.closed = false) (segment : Segment)
    (oppositeWaiting : Bool) (cache : SeqCache) (rtt : RoundTrips) (counters : Counters) :
    side.receive segment oppositeWaiting ⟨cache, rtt, counters⟩ =
      let sampled := side.sample segment cache rtt
      ⟨side.account segment,
        ⟨sampled.1, sampled.2.1,
          counters.add side.direction (UInt64.ofNat segment.payload.length)⟩,
        segment.flags.isEnding && oppositeWaiting, sampled.2.2 && !segment.payload.isEmpty⟩ := by
  unfold receive
  rw [h, if_neg Bool.false_ne_true]

theorem Side.total_account (side : Side) (s : Segment) :
    (side.account s).total = side.total + Traffic.ofSegments [s] := rfl

/-! ## What a segment does to its session -/

/-- A session whose sides stand where they belong and are open. -/
structure Session.TwoSided (s : Session) : Prop where
  direction_eq : ∀ d, (s.side d).direction = d
  closed_eq : ∀ d, (s.side d).closed = false
  forward_key : s.forward.key = s.key
  backward_key : s.backward.key = s.key.reverse

namespace Session

variable {s : Session} (config : Config) (registry : Registry)

theorem TwoSided.new (key : Flow) (now : Instant) : (Session.new key now).TwoSided where
  direction_eq := by rintro (_ | _) <;> rfl
  closed_eq := by rintro (_ | _) <;> rfl
  forward_key := rfl
  backward_key := rfl

/-- Decoders have no say in what is counted. -/
theorem frame_absorb (name : String) (event : AppEvent) :
    (∀ d, (s.absorb name event).1.side d = s.side d) ∧
      (s.absorb name event).1.rtt = s.rtt ∧
      ∀ n ∈ (s.absorb name event).2, n.summary? = none := by
  cases event with
  | unknown => exact ⟨by rintro (_ | _) <;> rfl, rfl, by simp [absorb]⟩
  | request request => exact ⟨by rintro (_ | _) <;> rfl, rfl, by simp [absorb]⟩
  | response response =>
    unfold absorb
    rcases s.pendingRequest with _ | request
    · exact ⟨by rintro (_ | _) <;> rfl, rfl, by simp⟩
    · refine ⟨by rintro (_ | _) <;> rfl, rfl, fun n hn => ?_⟩
      rw [List.mem_singleton.mp hn]
      rfl

theorem frame_inspect (payload : List UInt8) (seen : Instant) :
    (∀ d, (s.inspect config registry payload seen).1.side d = s.side d) ∧
      (s.inspect config registry payload seen).1.rtt = s.rtt ∧
      ∀ n ∈ (s.inspect config registry payload seen).2, n.summary? = none := by
  unfold inspect
  rcases s.audience? config registry with _ | audience
  · exact ⟨fun _ => rfl, rfl, by simp⟩
  · dsimp only
    have hcalls : ∀ n ∈ (audience.ask registry payload seen).called.map Notice.decoderCalled,
        n.summary? = none := by
      intro n hn
      obtain ⟨name, -, rfl⟩ := List.mem_map.mp hn
      rfl
    rcases (audience.ask registry payload seen).event with _ | ⟨name, event⟩
    · exact ⟨by rintro (_ | _) <;> rfl, rfl, hcalls⟩
    · obtain ⟨hside, hrtt, hnotices⟩ :=
        frame_absorb (s := { s with inspected := s.inspected + 1 }) name event
      refine ⟨fun d => (hside d).trans (by cases d <;> rfl), hrtt, fun n hn => ?_⟩
      exact (List.mem_append.mp hn).elim (hcalls n) (hnotices n)

/-- A segment delivers no summary, whatever the decoders make of it. -/
theorem summary?_receiveOn (cache : SeqCache) (counters : Counters) (d : Direction)
    (segment : Segment) :
    ∀ n ∈ (s.receiveOn config registry cache counters d segment).notices, n.summary? = none := by
  unfold receiveOn
  dsimp only
  split_ifs
  · exact (frame_inspect config registry segment.payload segment.seen).2.2
  · simp

/-- **What a segment does.** It is counted on its own side and on no other, and on the interface in
the same direction; cache and statistics are those the side leaves. -/
theorem receiveOn_of_twoSided (hs : s.TwoSided) (cache : SeqCache) (counters : Counters)
    (d : Direction) (segment : Segment) :
    let out := s.receiveOn config registry cache counters d segment
    let sampled := (s.side d).sample segment cache s.rtt
    (∀ e, out.session.side e = if e = d then (s.side d).account segment else s.side e) ∧
      out.session.rtt = sampled.2.1 ∧ out.cache = sampled.1 ∧
      out.counters = counters.add d (UInt64.ofNat segment.payload.length) := by
  -- The time of the last activity stands beside the sides.
  have hside : ∀ e, { s with lastSeen := max s.lastSeen segment.seen }.side e = s.side e := by
    rintro (_ | _) <;> rfl
  have hset : ∀ (side : Side) (rtt : RoundTrips) (e : Direction),
      { { s with lastSeen := max s.lastSeen segment.seen }.setSide side d with rtt := rtt }.side e =
        if e = d then side else s.side e := by
    intro side rtt e
    cases d <;> cases e <;> rfl
  unfold receiveOn
  dsimp only
  rw [hside d, Side.receive_of_open (hs.closed_eq d), hs.direction_eq]
  dsimp only
  split_ifs
  · obtain ⟨hsame, hrtt, -⟩ := frame_inspect config registry
      (s := { { s with lastSeen := max s.lastSeen segment.seen }.setSide
          ((s.side d).account segment) d with
        rtt := ((s.side d).sample segment cache s.rtt).2.1 }) segment.payload segment.seen
    exact ⟨fun e => (hsame e).trans (hset _ _ e), hrtt, rfl, rfl⟩
  · exact ⟨hset _ _, rfl, rfl, rfl⟩

/-- The direction of a flow hangs on the key alone. -/
theorem route_congr {t : Session} (h : t.key = s.key) (flow : Flow) : t.route flow = s.route flow := by
  unfold route
  rw [h]

end Session

namespace Lifecycle

/-- The segment that an input brings in a direction. -/
def Input.segment? (session : Session) (d : Direction) : Input → Option Segment
  | .segment s => if session.route s.flow = some d then some s else none
  | .tick _ => none

/-- The segments that a list of inputs brings in a direction. -/
def segmentsOn (session : Session) (d : Direction) (inputs : List Input) : List Segment :=
  inputs.filterMap (Input.segment? session d)

variable (config : Config) (registry : Registry) (counters : Counters) {l : Lifecycle}

theorem Input.segment?_congr {s t : Session} (h : t.key = s.key) (d : Direction) (input : Input) :
    input.segment? t d = input.segment? s d := by
  cases input with
  | segment segment =>
    unfold segment?
    dsimp only
    rw [Session.route_congr h]
  | tick now => rfl

theorem segmentsOn_congr {s t : Session} (h : t.key = s.key) (d : Direction) (inputs : List Input) :
    segmentsOn t d inputs = segmentsOn s d inputs :=
  List.filterMap_congr fun input _ => Input.segment?_congr h d input

theorem segmentsOn_cons (s : Session) (d : Direction) (input : Input) (inputs : List Input) :
    segmentsOn s d (input :: inputs) = (input.segment? s d).toList ++ segmentsOn s d inputs := by
  unfold segmentsOn
  rcases hi : input.segment? s d with _ | segment
  · rw [List.filterMap_cons_none hi]
    rfl
  · rw [List.filterMap_cons_some hi]
    rfl

/-! ## One turn -/

theorem turn_of_routed {s : Segment} {d : Direction} (h : l.session.route s.flow = some d) :
    l.turn config registry counters (.segment s) =
      let out := l.session.receiveOn config registry l.cache counters d s
      ⟨⟨out.session, out.cache⟩, out.notices, out.finish, out.counters⟩ := by
  unfold turn
  dsimp only
  rw [h]

theorem turn_of_unrouted {s : Segment} (h : l.session.route s.flow = none) :
    l.turn config registry counters (.segment s) = ⟨l, [], false, counters⟩ := by
  unfold turn
  dsimp only
  rw [h]

/-- A side after an input: the side of a segment counts it, and a tick moves the marks of the last
report. -/
theorem side_turn (hl : l.session.TwoSided) (input : Input) (e : Direction) :
    (l.turn config registry counters input).next.session.side e =
      match input with
      | .segment s =>
        if l.session.route s.flow = some e then (l.session.side e).account s else l.session.side e
      | .tick _ => (l.session.side e).takeDelta.1 := by
  cases input with
  | segment s =>
    dsimp only
    rcases hroute : l.session.route s.flow with _ | d
    · rw [turn_of_unrouted config registry counters hroute]
      rfl
    · obtain ⟨hside, -⟩ :=
        Session.receiveOn_of_twoSided config registry hl l.cache counters d s
      rw [turn_of_routed config registry counters hroute]
      dsimp only at hside ⊢
      rw [hside]
      by_cases hed : e = d
      · rw [if_pos hed, if_pos (congrArg some hed.symm), hed]
      · rw [if_neg hed, if_neg fun h => hed (Option.some.inj h).symm]
  | tick now => cases e <;> rcases now with _ | now <;> rfl

/-- Counting leaves the standing of a side as it is. -/
theorem standing_turn (hl : l.session.TwoSided) (input : Input) (e : Direction) :
    let side := (l.turn config registry counters input).next.session.side e
    side.direction = (l.session.side e).direction ∧ side.key = (l.session.side e).key ∧
      side.closed = (l.session.side e).closed := by
  dsimp only
  rw [side_turn config registry counters hl]
  cases input with
  | segment s =>
    dsimp only
    split_ifs <;> exact ⟨rfl, rfl, rfl⟩
  | tick now => exact ⟨rfl, rfl, rfl⟩

theorem twoSided_turn (hl : l.session.TwoSided) (input : Input) :
    (l.turn config registry counters input).next.session.TwoSided := by
  have hkey := l.key_turn config registry counters input
  have hsame := standing_turn config registry counters hl input
  refine ⟨fun e => ?_, fun e => ?_, ?_, ?_⟩
  · rw [(hsame e).1, hl.direction_eq]
  · rw [(hsame e).2.2, hl.closed_eq]
  · rw [hkey, ← hl.forward_key]
    exact (hsame .clientToServer).2.1
  · rw [hkey, ← hl.backward_key]
    exact (hsame .serverToClient).2.1

/-- **Session and interface count the same.** -/
theorem traffic_turn (hl : l.session.TwoSided) (input : Input) (d : Direction) :
    ((l.turn config registry counters input).next.session.side d).total =
        (l.session.side d).total + Traffic.ofSegments (input.segment? l.session d).toList ∧
      (l.turn config registry counters input).counters.traffic d =
        counters.traffic d + Traffic.ofSegments (input.segment? l.session d).toList := by
  constructor
  · rw [side_turn config registry counters hl]
    cases input with
    | segment s =>
      unfold Input.segment?
      dsimp only
      split_ifs
      · exact Side.total_account _ s
      · exact (add_zero _).symm
    | tick now => exact (add_zero _).symm
  · cases input with
    | segment s =>
      unfold Input.segment?
      dsimp only
      rcases hroute : l.session.route s.flow with _ | e
      · rw [turn_of_unrouted config registry counters hroute]
        exact (add_zero _).symm
      · obtain ⟨-, -, -, hcounters⟩ :=
          Session.receiveOn_of_twoSided config registry hl l.cache counters e s
        rw [turn_of_routed config registry counters hroute]
        dsimp only at hcounters ⊢
        rw [hcounters, Counters.traffic_add]
        by_cases hed : e = d
        · rw [if_pos hed, if_pos (congrArg some hed)]
          rfl
        · rw [if_neg hed, if_neg fun h => hed (Option.some.inj h)]
          rfl
    | tick now => exact (add_zero _).symm

/-- A turn delivers no summary; that is left to whoever closes the session. -/
theorem summary?_turn (l : Lifecycle) (input : Input) :
    ∀ n ∈ (l.turn config registry counters input).notices, n.summary? = none := by
  cases input with
  | segment s =>
    rcases hroute : l.session.route s.flow with _ | d
    · rw [turn_of_unrouted config registry counters hroute]
      exact fun n hn => absurd hn List.not_mem_nil
    · rw [turn_of_routed config registry counters hroute]
      exact l.session.summary?_receiveOn config registry l.cache counters d s
  | tick now =>
    unfold turn Session.tick
    rcases now with _ | now <;> dsimp only
    · simp [Notice.summary?]
    · split_ifs <;> simp [Notice.summary?]

/-! ## A whole lifecycle -/

theorem twoSided_replay (hl : l.session.TwoSided) (inputs : List Input) :
    (l.replay config registry inputs).1.session.TwoSided := by
  induction inputs generalizing l with
  | nil => exact hl
  | cons input inputs ih => exact ih (twoSided_turn config registry {} hl input)

theorem key_replay (inputs : List Input) :
    (l.replay config registry inputs).1.session.key = l.session.key := by
  induction inputs generalizing l with
  | nil => rfl
  | cons input inputs ih => exact (ih).trans (l.key_turn config registry {} input)

theorem summary?_replay (l : Lifecycle) (inputs : List Input) :
    ∀ n ∈ (l.replay config registry inputs).2, n.summary? = none := by
  induction inputs generalizing l with
  | nil => exact fun n hn => absurd hn List.not_mem_nil
  | cons input inputs ih =>
    intro n hn
    rcases List.mem_append.mp hn with hnow | hlater
    · exact summary?_turn config registry {} l input n hnow
    · exact ih _ n hlater

/-- **A lifecycle counts what it is fed**, each segment once and in its own direction. -/
theorem total_replay (hl : l.session.TwoSided) (inputs : List Input) (d : Direction) :
    ((l.replay config registry inputs).1.session.side d).total =
      (l.session.side d).total + Traffic.ofSegments (segmentsOn l.session d inputs) := by
  induction inputs generalizing l with
  | nil => exact (add_zero _).symm
  | cons input inputs ih =>
    have hkey := l.key_turn config registry {} input
    rw [replay, ih (twoSided_turn config registry {} hl input), segmentsOn_congr hkey,
      (traffic_turn config registry {} hl input d).1, segmentsOn_cons, Traffic.ofSegments_append,
      add_assoc]

end Lifecycle

end FlowWatch
