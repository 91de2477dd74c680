/-
What a session hears, and what it makes of it.

Of all that a session takes, the decoders are shown little: the segments of the connection that bring a
payload, in the order of their arrival and from both directions alike. And of all that a session is,
little matters to them: `dialogue` is that much. So the exchanges of a session, the calls of its decoders
and what it knows of the protocol are those of `listen`, which inspects the payloads one after the other
and knows nothing of sides, caches and ticks.

That no payload is lost on the way hangs on the cache, because a payload is only inspected when the
cache has answered; while the session is open its cache is open, and an open cache always answers.
-/
import FlowWatch.Proofs.Session.Traffic

set_option autoImplicit false

namespace FlowWatch

/-! ## An open cache answers -/

namespace SeqCache

variable {c : SeqCache}

theorem push_of_open (h : c.closed = false) (key : StreamPoint) (seen : Instant) :
    ∃ known, (c.push key seen).2 = .ok known := by
  unfold push
  rw [h, if_neg Bool.false_ne_true]
  dsimp only
  rcases (c.purge seen).1.index[key]? with _ | i
  · exact ⟨false, rfl⟩
  · exact ⟨true, rfl⟩

theorem pull_of_open (h : c.closed = false) (key : StreamPoint) :
    ∃ sent, (c.pull key).2 = .ok sent := by
  unfold pull
  rw [h, if_neg Bool.false_ne_true]
  rcases c.index[key]? with _ | i
  · exact ⟨_, rfl⟩
  · exact ⟨_, rfl⟩

end SeqCache

/-- Whether the cache is written or read, it has answered. -/
theorem Side.sample_answered (side : Side) (s : Segment) {cache : SeqCache} (rtt : RoundTrips)
    (h : cache.closed = false) : (side.sample s cache rtt).2.2 = true := by
  unfold sample
  rcases side.direction with _ | _
  · obtain ⟨known, hanswer⟩ := SeqCache.push_of_open h ⟨side.key, s.coveringAck⟩ s.seen
    dsimp only
    revert hanswer
    rcases cache.push ⟨side.key, s.coveringAck⟩ s.seen with ⟨c, answer⟩
    rintro rfl
    rfl
  · obtain ⟨sent, hanswer⟩ := SeqCache.pull_of_open h ⟨side.key.reverse, s.ack⟩
    dsimp only
    revert hanswer
    rcases cache.pull ⟨side.key.reverse, s.ack⟩ with ⟨c, answer⟩
    rintro rfl
    rcases sent with _ | sent <;> rfl

/-- Whether a notice comes from the inspection of a payload. -/
def Notice.isHeard : Notice → Bool
  | .exchange .. => true
  | .decoderCalled _ => true
  | _ => false

/-- What a session knows of the protocol, and what inspection may change. -/
structure Dialogue where
  key : Flow
  protocolState : ProtocolState
  inspected : UInt32
  pendingRequest : Option SeenRequest
  exchanges : UInt64

namespace Session

/-- The dialogue of a session. -/
def dialogue (s : Session) : Dialogue :=
  ⟨s.key, s.protocolState, s.inspected, s.pendingRequest, s.exchanges⟩

/-- The session after inspecting the payloads of some segments, and what it has told of them. -/
def listen (config : Config) (registry : Registry) (s : Session) :
    List Segment → Session × List Notice
  | [] => (s, [])
  | segment :: segments =>
    let heard := s.inspect config registry segment.payload segment.seen
    let later := heard.1.listen config registry segments
    (later.1, heard.2 ++ later.2)

variable (config : Config) (registry : Registry) {s t : Session}

/-! ## Inspection sees the dialogue alone -/

theorem absorb_congr (h : s.dialogue = t.dialogue) (name : String) (event : AppEvent) :
    (s.absorb name event).1.dialogue = (t.absorb name event).1.dialogue ∧
      (s.absorb name event).2 = (t.absorb name event).2 := by
  obtain ⟨hkey, hstate, hinspected, hpending, hexchanges⟩ := Dialogue.mk.inj h
  cases event with
  | unknown => exact ⟨h, rfl⟩
  | request request =>
    unfold absorb dialogue
    dsimp only
    rw [hkey, hstate, hinspected, hexchanges]
    exact ⟨rfl, rfl⟩
  | response response =>
    unfold absorb
    rw [hpending]
    rcases t.pendingRequest with _ | request
    · exact ⟨h, rfl⟩
    · unfold dialogue
      dsimp only
      rw [hkey, hexchanges]
      exact ⟨rfl, rfl⟩

theorem audience?_congr (h : s.dialogue = t.dialogue) :
    s.audience? config registry = t.audience? config registry := by
  obtain ⟨-, hstate, hinspected, -, -⟩ := Dialogue.mk.inj h
  unfold audience?
  rw [hstate, hinspected]

theorem inspect_congr (h : s.dialogue = t.dialogue) (payload : List UInt8) (seen : Instant) :
    (s.inspect config registry payload seen).1.dialogue =
        (t.inspect config registry payload seen).1.dialogue ∧
      (s.inspect config registry payload seen).2 = (t.inspect config registry payload seen).2 := by
  have hcount : { s with inspected := s.inspected + 1 }.dialogue =
      { t with inspected := t.inspected + 1 }.dialogue := by
    obtain ⟨hkey, hstate, hinspected, hpending, hexchanges⟩ := Dialogue.mk.inj h
    unfold dialogue
    dsimp only
    rw [hkey, hstate, hinspected, hpending, hexchanges]
  unfold inspect
  rw [audience?_congr config registry h]
  rcases t.audience? config registry with _ | audience
  · exact ⟨h, rfl⟩
  · dsimp only
    rcases (audience.ask registry payload seen).event with _ | ⟨name, event⟩
    · exact ⟨hcount, rfl⟩
    · obtain ⟨hnext, htold⟩ := absorb_congr hcount name event
      exact ⟨hnext, congrArg (List.append _) htold⟩

theorem listen_congr (h : s.dialogue = t.dialogue) (segments : List Segment) :
    (s.listen config registry segments).1.dialogue =
        (t.listen config registry segments).1.dialogue ∧
      (s.listen config registry segments).2 = (t.listen config registry segments).2 := by
  induction segments generalizing s t with
  | nil => exact ⟨h, rfl⟩
  | cons segment segments ih =>
    obtain ⟨hnext, htold⟩ := inspect_congr config registry h segment.payload segment.seen
    obtain ⟨hlast, hlater⟩ := ih hnext
    refine ⟨hlast, ?_⟩
    rw [listen, listen, htold, hlater]

theorem listen_append (s : Session) (xs ys : List Segment) :
    s.listen config registry (xs ++ ys) =
      (((s.listen config registry xs).1.listen config registry ys).1,
        (s.listen config registry xs).2 ++
          ((s.listen config registry xs).1.listen config registry ys).2) := by
  induction xs generalizing s with
  | nil => rfl
  | cons segment xs ih =>
    rw [List.cons_append, listen, listen, ih]
    dsimp only
    rw [List.append_assoc]

/-- All that inspection tells is of its kind. -/
theorem isHeard_inspect (s : Session) (payload : List UInt8) (seen : Instant) :
    ∀ n ∈ (s.inspect config registry payload seen).2, n.isHeard = true := by
  unfold inspect
  rcases s.audience? config registry with _ | audience
  · exact fun n hn => absurd hn List.not_mem_nil
  · dsimp only
    have hcalls : ∀ n ∈ (audience.ask registry payload seen).called.map Notice.decoderCalled,
        n.isHeard = true := by
      intro n hn
      obtain ⟨name, -, rfl⟩ := List.mem_map.mp hn
      rfl
    rcases (audience.ask registry payload seen).event with _ | ⟨name, event⟩
    · exact hcalls
    · intro n hn
      rcases List.mem_append.mp hn with hcall | hexchange
      · exact hcalls n hcall
      · cases event with
        | unknown => exact absurd hexchange List.not_mem_nil
        | request request => exact absurd hexchange List.not_mem_nil
        | response response =>
          unfold absorb at hexchange
          dsimp only at hexchange
          rcases hpending : s.pendingRequest with _ | request
          · rw [hpending] at hexchange
            exact absurd hexchange List.not_mem_nil
          · rw [hpending] at hexchange
            rw [List.mem_singleton.mp hexchange]
            rfl

end Session

namespace Lifecycle

/-- The segment of an input, if the session hears it: one of its connection that brings a payload. -/
def Input.heard? (session : Session) : Input → Option Segment
  | .segment s => if (session.route s.flow).isSome && !s.payload.isEmpty then some s else none
  | .tick _ => none

/-- The segments that a session hears. -/
def heardBy (session : Session) (inputs : List Input) : List Segment :=
  inputs.filterMap (Input.heard? session)

variable (config : Config) (registry : Registry) (counters : Counters) {l : Lifecycle}

theorem Input.heard?_congr {s t : Session} (h : t.key = s.key) (input : Input) :
    input.heard? t = input.heard? s := by
  cases input with
  | segment segment =>
    unfold heard?
    dsimp only
    rw [Session.route_congr h]
  | tick now => rfl

theorem heardBy_congr {s t : Session} (h : t.key = s.key) (inputs : List Input) :
    heardBy t inputs = heardBy s inputs :=
  List.filterMap_congr fun input _ => Input.heard?_congr h input

theorem heardBy_cons (s : Session) (input : Input) (inputs : List Input) :
    heardBy s (input :: inputs) = (input.heard? s).toList ++ heardBy s inputs := by
  unfold heardBy
  rcases hi : input.heard? s with _ | segment
  · rw [List.filterMap_cons_none hi]
    rfl
  · rw [List.filterMap_cons_some hi]
    rfl

theorem heardBy_append (s : Session) (xs ys : List Input) :
    heardBy s (xs ++ ys) = heardBy s xs ++ heardBy s ys := List.filterMap_append

/-! ## One turn -/

/-- A segment is inspected if it brings a payload. -/
theorem dialogue_routed (hl : l.session.TwoSided) (hopen : l.cache.closed = false) {s : Segment}
    {d : Direction} (hroute : l.session.route s.flow = some d) :
    (l.turn config registry counters (.segment s)).next.session.dialogue =
        (l.session.listen config registry (if s.payload.isEmpty then [] else [s])).1.dialogue ∧
      (l.turn config registry counters (.segment s)).notices =
        (l.session.listen config registry (if s.payload.isEmpty then [] else [s])).2 := by
  have hside : { l.session with lastSeen := max l.session.lastSeen s.seen }.side d =
      l.session.side d := by
    cases d <;> rfl
  have hanswered := Side.sample_answered (l.session.side d) s l.session.rtt hopen
  rw [turn_of_routed config registry counters hroute]
  unfold Session.receiveOn
  dsimp only
  rw [hside, Side.receive_of_open (hl.closed_eq d)]
  simp only [hanswered, Bool.true_and]
  -- What the segment has done so far does not show in the dialogue.
  have hframe : ∀ (side : Side) (rtt : RoundTrips),
      { { l.session with lastSeen := max l.session.lastSeen s.seen }.setSide side d with
        rtt := rtt }.dialogue = l.session.dialogue := by
    intro side rtt
    cases d <;> rfl
  rcases hpayload : s.payload.isEmpty with _ | _
  · obtain ⟨hnext, htold⟩ := Session.inspect_congr config registry
      (hframe ((l.session.side d).account s)
        ((l.session.side d).sample s l.cache l.session.rtt).2.1) s.payload s.seen
    simp only [Bool.not_false, if_true, Bool.false_eq_true, if_false]
    refine ⟨hnext, htold.trans ?_⟩
    exact (List.append_nil _).symm
  · simp only [Bool.not_true, if_true, Bool.false_eq_true, if_false]
    exact ⟨hframe _ _, rfl⟩

theorem listen_turn (hl : l.session.TwoSided) (hopen : l.cache.closed = false) (input : Input) :
    (l.turn config registry counters input).next.session.dialogue =
        (l.session.listen config registry (input.heard? l.session).toList).1.dialogue ∧
      (l.turn config registry counters input).notices.filter Notice.isHeard =
        (l.session.listen config registry (input.heard? l.session).toList).2 := by
  cases input with
  | segment s =>
    rcases hroute : l.session.route s.flow with _ | d
    · have hunheard : Input.heard? l.session (.segment s) = none := by
        unfold Input.heard?
        dsimp only
        rw [hroute]
        rfl
      rw [turn_of_unrouted config registry counters hroute, hunheard]
      exact ⟨rfl, rfl⟩
    · obtain ⟨hnext, htold⟩ := dialogue_routed config registry counters hl hopen hroute
      have hheard : (Input.heard? l.session (.segment s)).toList =
          if s.payload.isEmpty then [] else [s] := by
        unfold Input.heard?
        dsimp only
        rw [hroute]
        rcases s.payload.isEmpty with _ | _ <;> rfl
      rw [hheard, hnext, htold]
      refine ⟨rfl, List.filter_eq_self.mpr ?_⟩
      split_ifs
      · exact fun n hn => absurd hn List.not_mem_nil
      · intro n hn
        rw [Session.listen, Session.listen, List.append_nil] at hn
        exact Session.isHeard_inspect config registry l.session s.payload s.seen n hn
  | tick now =>
    unfold turn Session.tick
    rcases now with _ | now
    · exact ⟨rfl, rfl⟩
    · dsimp only
      split_ifs <;> exact ⟨rfl, rfl⟩

/-! ## A whole lifecycle -/

/-- **A session makes of its inputs what listening makes of the payloads among them.** -/
theorem listen_replay (hl : l.session.TwoSided) (hopen : l.cache.closed = false)
    (inputs : List Input) :
    (l.replay config registry inputs).1.session.dialogue =
        (l.session.listen config registry (heardBy l.session inputs)).1.dialogue ∧
      (l.replay config registry inputs).2.filter Notice.isHeard =
        (l.session.listen config registry (heardBy l.session inputs)).2 := by
  induction inputs generalizing l with
  | nil => exact ⟨rfl, rfl⟩
  | cons input inputs ih =>
    have hkey := l.key_turn config registry {} input
    have hclosed := (l.settings_turn config registry {} input).2
    obtain ⟨hnow, htold⟩ := listen_turn config registry {} hl hopen input
    obtain ⟨hnext, hlater⟩ := ih (twoSided_turn config registry {} hl input) (hclosed.trans hopen)
    rw [heardBy_congr hkey] at hnext hlater
    obtain ⟨hsame, hsaid⟩ := Session.listen_congr config registry hnow (heardBy l.session inputs)
    rw [heardBy_cons, Session.listen_append]
    refine ⟨hnext.trans hsame, ?_⟩
    rw [replay, List.filter_append, htold, hlater, hsaid]

/-- A session that has just been opened can hear. -/
theorem listen_begin (key : Flow) (now : Instant) (inputs : List Input) :
    let l := begin config key now
    (l.replay config registry inputs).1.session.dialogue =
        (l.session.listen config registry (heardBy l.session inputs)).1.dialogue ∧
      (l.replay config registry inputs).2.filter Notice.isHeard =
        (l.session.listen config registry (heardBy l.session inputs)).2 :=
  listen_replay config registry (Session.TwoSided.new key now) rfl inputs

end Lifecycle

end FlowWatch
