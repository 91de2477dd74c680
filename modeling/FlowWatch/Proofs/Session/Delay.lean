/-
A session does not see where time begins.

Everything that a session does with a time is to keep it, to take the later of two, or to take a
difference. `delay` makes every time in a piece of data later by `d`, and each function of a session
commutes with it: what comes out of later data is what came out of the data, later. Spans are not
touched, so neither are round-trip times, durations and latencies.

Two places need more. What a decoder makes of a payload is up to the decoder; one that `FollowsClock`
copies the time it is given. And the test for idleness has an edge, since a timeout may reach back beyond
the first instant. It does so only where the session is not idle anyway, as long as all times are instants
(`isIdle_eq`).
-/
import FlowWatch.Http.Decoding
import FlowWatch.Proofs.SeqCache.Delay
import FlowWatch.Proofs.Session.Marks

set_option autoImplicit false

namespace FlowWatch

variable (d : Span)

/-! ## What is seen and what is told -/

/-- The segment, seen later by `d`. -/
def Segment.delay (s : Segment) : Segment := { s with seen := s.seen + d }

/-- The request, seen later by `d`. -/
def SeenRequest.delay (r : SeenRequest) : SeenRequest := { r with seen := r.seen + d }

/-- The response, seen later by `d`. -/
def SeenResponse.delay (r : SeenResponse) : SeenResponse := { r with seen := r.seen + d }

/-- The event, seen later by `d`. -/
def AppEvent.delay : AppEvent → AppEvent
  | .unknown => .unknown
  | .request r => .request (r.delay d)
  | .response r => .response (r.delay d)

/-- The exchange, requested later by `d`. -/
def Exchange.delay (e : Exchange) : Exchange := { e with requestedAt := e.requestedAt + d }

/-- The stamp later by `d`, at the same offset. -/
def Stamp.delay (s : Stamp) : Stamp := { s with instant := s.instant + d }

/-- The record of a session whose first and last segment were seen later by `d`. -/
def SessionRecord.delay (r : SessionRecord) : SessionRecord :=
  { r with firstSeen := r.firstSeen.delay d, lastSeen := r.lastSeen.delay d }

/-- The record of an exchange requested later by `d`. -/
def ExchangeRecord.delay (r : ExchangeRecord) : ExchangeRecord :=
  { r with requestedAt := r.requestedAt.delay d }

/-- The notice, with the times in it later by `d`. Only summaries and exchanges have any. -/
def Notice.delay : Notice → Notice
  | .sessionClosed r => .sessionClosed (r.delay d)
  | .exchange flow e => .exchange flow (e.delay d)
  | n => n

/-- What is between a request and its response does not change. -/
theorem Exchange.ofPair_delay (request : SeenRequest) (response : SeenResponse) :
    Exchange.ofPair (request.delay d) (response.delay d) =
      (Exchange.ofPair request response).delay d := by
  have hlatency : response.seen + d - (request.seen + d) = response.seen - request.seen :=
    Int.add_sub_add_right _ _ _
  unfold Exchange.ofPair SeenRequest.delay SeenResponse.delay Exchange.delay
  dsimp only
  rw [hlatency]

theorem Notice.summary?_delay (n : Notice) : (n.delay d).summary? = n.summary?.map (·.delay d) := by
  cases n <;> rfl

theorem Notice.exchange?_delay (n : Notice) :
    (n.delay d).exchange? = n.exchange?.map (·.delay d) := by
  cases n <;> rfl

/-! ## Decoders -/

/-- The decoder takes from the time of a payload nothing but the time of its event. -/
def Decoder.FollowsClock (dec : Decoder) : Prop :=
  ∀ (d : Span) (payload : List UInt8) (seen : Instant),
    dec.decode payload (seen + d) = (dec.decode payload seen).map (·.delay d)

/-- All decoders of the registry follow the clock. -/
def Registry.FollowsClock (r : Registry) : Prop := ∀ dec ∈ r.decoders, dec.FollowsClock

/-- A decoder given by a table follows the clock. -/
theorem Decoder.ofRules_followsClock (name : String) (refines : Bool) (protocol : String)
    (rules : List (List UInt8 × Reply)) :
    (Decoder.ofRules name refines protocol rules).FollowsClock := by
  intro d payload seen
  unfold Decoder.ofRules
  dsimp only
  generalize rules.find? _ = found
  rcases found with _ | ⟨opening, _ | _ | _ | _⟩ <;> rfl

theorem Http.readPayload_delay (payload : List UInt8) (seen : Instant) :
    readPayload payload (seen + d) = (readPayload payload seen).map (·.delay d) := by
  unfold readPayload
  simp only [bind, Except.bind, pure, Except.pure]
  rcases (Cursor.new payload).requireLength minimumLength with e | _
  · rfl
  · rcases (Cursor.new payload).opening with e | opening
    · rfl
    · dsimp only
      split_ifs
      · rcases Response.parse payload with e | response <;> rfl
      · rcases Request.parse payload with e | request <;> rfl
      · rfl

theorem Http.decoder_followsClock (name : String) : (Http.decoder name).FollowsClock := by
  intro d payload seen
  unfold Http.decoder
  dsimp only
  rw [readPayload_delay]
  rcases readPayload payload seen with e | event <;> rfl

/-- The built-in decoders follow the clock. -/
theorem Registry.standard_followsClock : Registry.standard.FollowsClock := by
  intro dec hdec
  obtain rfl := List.mem_singleton.mp hdec
  exact Http.decoder_followsClock _

/-- The verdict, with its event later by `d`. -/
def Verdict.delay (v : Verdict) : Verdict :=
  { v with event := v.event.map fun e => (e.1, e.2.delay d) }

theorem Decoder.FollowsClock.accept?_eq {dec : Decoder} (h : dec.FollowsClock)
    (payload : List UInt8) (seen : Instant) :
    dec.accept? payload (seen + d) = (dec.accept? payload seen).map (·.delay d) := by
  unfold Decoder.accept?
  rw [h]
  rcases dec.decode payload seen with e | event <;> rfl

namespace Registry.FollowsClock

variable {registry : Registry} (h : registry.FollowsClock)

include h

theorem offer_eq (payload : List UInt8) (seen : Instant) :
    registry.offer payload (seen + d) = (registry.offer payload seen).delay d := by
  obtain ⟨decs, hdistinct⟩ := registry
  change ∀ dec ∈ decs, dec.FollowsClock at h
  change firstAccepting payload (seen + d) decs = (firstAccepting payload seen decs).delay d
  clear hdistinct
  induction decs with
  | nil => rfl
  | cons dec decs ih =>
    unfold firstAccepting
    rw [(h dec List.mem_cons_self).accept?_eq,
      ih fun other hother => h other (List.mem_cons_of_mem dec hother)]
    rcases dec.accept? payload seen with _ | event <;> rfl

theorem offerTo_eq (name : String) (payload : List UInt8) (seen : Instant) :
    registry.offerTo name payload (seen + d) = (registry.offerTo name payload seen).delay d := by
  unfold offerTo
  rcases hfind : registry.find? name with _ | dec
  · rfl
  · have hdec : dec.FollowsClock := h dec (List.mem_of_find?_eq_some hfind)
    dsimp only
    rw [hdec.accept?_eq]
    rcases dec.accept? payload seen with _ | event <;> rfl

theorem ask_eq (audience : Session.Audience) (payload : List UInt8) (seen : Instant) :
    audience.ask registry payload (seen + d) = (audience.ask registry payload seen).delay d := by
  cases audience with
  | all => exact h.offer_eq d payload seen
  | only name => exact h.offerTo_eq d name payload seen

end Registry.FollowsClock

/-! ## Sides -/

namespace Side

variable (side : Side) (s : Segment) (cache : SeqCache)

/-- A round trip takes as long as it took. -/
theorem sample_delay (rtt : RoundTrips) :
    side.sample (s.delay d) (cache.delay d) rtt =
      ((side.sample s cache rtt).1.delay d, (side.sample s cache rtt).2) := by
  have hcovering : (s.delay d).coveringAck = s.coveringAck := rfl
  have hack : (s.delay d).ack = s.ack := rfl
  have hseen : (s.delay d).seen = s.seen + d := rfl
  unfold sample
  rw [hcovering, hack, hseen]
  cases side.direction with
  | clientToServer =>
    dsimp only
    rw [SeqCache.push_delay]
    rcases cache.push ⟨side.key, s.coveringAck⟩ s.seen with ⟨c, _ | known⟩ <;> rfl
  | serverToClient =>
    dsimp only
    rw [SeqCache.pull_delay]
    rcases cache.pull ⟨side.key.reverse, s.ack⟩ with ⟨c, _ | _ | sent⟩
    · rfl
    · rfl
    · have hrtt : s.seen + d - (sent + d) = s.seen - sent := Int.add_sub_add_right _ _ _
      dsimp only [Except.map, Option.map_some]
      rw [hrtt]

theorem receive_delay (oppositeWaiting : Bool) (rtt : RoundTrips) (counters : Counters) :
    let r := side.receive s oppositeWaiting ⟨cache, rtt, counters⟩
    side.receive (s.delay d) oppositeWaiting ⟨cache.delay d, rtt, counters⟩ =
      { r with ledger := { r.ledger with cache := r.ledger.cache.delay d } } := by
  dsimp only
  unfold receive
  split_ifs
  · rfl
  · dsimp only
    rw [sample_delay]
    rfl

end Side

/-! ## Sessions -/

namespace Session

/-- The session, with its times later by `d`: when it was seen, and when the request it keeps was. -/
def delay (s : Session) : Session :=
  { s with
    firstSeen := s.firstSeen + d
    lastSeen := s.lastSeen + d
    pendingRequest := s.pendingRequest.map (·.delay d) }

variable (s : Session) (config : Config) {registry : Registry}

@[simp] theorem new_delay (key : Flow) (now : Instant) :
    (Session.new key now).delay d = Session.new key (now + d) := rfl

theorem absorb_delay (name : String) (event : AppEvent) :
    (s.delay d).absorb name (event.delay d) =
      ((s.absorb name event).1.delay d, (s.absorb name event).2.map (·.delay d)) := by
  cases event with
  | unknown => rfl
  | request request => rfl
  | response response =>
    have hpending : (s.delay d).pendingRequest = s.pendingRequest.map (·.delay d) := rfl
    unfold AppEvent.delay absorb
    rw [hpending]
    rcases s.pendingRequest with _ | request
    · rfl
    · dsimp only [Option.map_some]
      rw [Exchange.ofPair_delay]
      rfl

theorem inspect_delay (hr : registry.FollowsClock) (payload : List UInt8) (seen : Instant) :
    (s.delay d).inspect config registry payload (seen + d) =
      ((s.inspect config registry payload seen).1.delay d,
        (s.inspect config registry payload seen).2.map (·.delay d)) := by
  have haudience : (s.delay d).audience? config registry = s.audience? config registry := rfl
  unfold inspect
  rw [haudience]
  rcases s.audience? config registry with _ | audience
  · rfl
  · dsimp only
    rw [hr.ask_eq]
    have hcalls : ∀ names : List String,
        (names.map Notice.decoderCalled).map (·.delay d) = names.map Notice.decoderCalled := by
      intro names
      rw [List.map_map]
      rfl
    rcases audience.ask registry payload seen with ⟨called, _ | ⟨name, event⟩⟩
    · exact Prod.ext rfl (hcalls called).symm
    · obtain ⟨hnext, htold⟩ :=
        Prod.ext_iff.mp (absorb_delay d { s with inspected := s.inspected + 1 } name event)
      dsimp only [Verdict.delay, Option.map_some]
      rw [List.map_append, hcalls]
      exact Prod.ext hnext (congrArg (called.map Notice.decoderCalled ++ ·) htold)

/-- What a session makes of a segment, later by `d`. -/
def Outcome.delay (out : Outcome) : Outcome :=
  { out with
    session := out.session.delay d
    cache := out.cache.delay d
    notices := out.notices.map (·.delay d) }

theorem active_delay (seen : Instant) : (s.delay d).active (seen + d) = (s.active seen).delay d := by
  have hlast : max (s.lastSeen + d) (seen + d) = max s.lastSeen seen + d := Int.max_add_right ..
  unfold active delay
  dsimp only
  rw [hlast]

theorem side_delay (direction : Direction) : (s.delay d).side direction = s.side direction := by
  cases direction <;> rfl

theorem noting_delay (side : Side) (direction : Direction) (rtt : RoundTrips) :
    (s.delay d).noting side direction rtt = (s.noting side direction rtt).delay d := by
  cases direction <;> rfl

theorem receiveOn_delay (hr : registry.FollowsClock) (cache : SeqCache) (counters : Counters)
    (direction : Direction) (segment : Segment) :
    (s.delay d).receiveOn config registry (cache.delay d) counters direction (segment.delay d) =
      (s.receiveOn config registry cache counters direction segment).delay d := by
  have hseen : (segment.delay d).seen = segment.seen + d := rfl
  have hrtt : (s.delay d).rtt = s.rtt := rfl
  rw [receiveOn_eq, receiveOn_eq, hseen, active_delay, hrtt]
  dsimp only
  rw [side_delay, side_delay, Side.receive_delay]
  dsimp only
  rw [noting_delay]
  split_ifs
  · have hpayload : (segment.delay d).payload = segment.payload := rfl
    rw [hpayload, inspect_delay d _ config hr]
    rfl
  · rfl

/-! ## Ticks -/

/-- Among instants the test for idleness is a comparison. A timeout that reaches back beyond the first
instant reaches beyond all of them. -/
theorem isIdle_eq {lastSeen now timeout : Int} (hlast : Instant.earliest ≤ lastSeen)
    (hnow : now ≤ Instant.latest) (htimeout : 0 ≤ timeout) :
    isIdle lastSeen now timeout = decide (lastSeen < now - timeout) := by
  unfold isIdle
  by_cases hlt : lastSeen < now - timeout
  · have hrepresentable : Instant.isRepresentable (now - timeout) = true := by
      refine Bool.and_eq_true_iff.mpr ⟨decide_eq_true ?_, decide_eq_true ?_⟩
      · exact Int.le_of_lt (Int.lt_of_le_of_lt hlast hlt)
      · exact Int.le_trans (Int.sub_le_self now htimeout) hnow
    rw [hrepresentable, Bool.true_and]
  · rw [decide_eq_false hlt, Bool.and_false]

/-- What a session makes of a tick, later by `d`. -/
def Upkeep.delay (out : Upkeep) : Upkeep :=
  { out with
    session := out.session.delay d
    cache := out.cache.delay d
    notices := out.notices.map (·.delay d) }

/-- The test for idleness has the same outcome at a later tick. -/
def Lasting (config : Config) (now : Option Instant) : Prop :=
  ∀ t, now = some t →
    isIdle (s.lastSeen + d) (t + d) config.idleTimeout = isIdle s.lastSeen t config.idleTimeout

theorem tick_delay (cache : SeqCache) {now : Option Instant} (h : s.Lasting d config now) :
    (s.delay d).tick config (cache.delay d) (now.map (· + d)) =
      (s.tick config cache now).delay d := by
  unfold tick
  rcases now with _ | now
  · rfl
  · dsimp only [Option.map_some]
    rw [SeqCache.purge_delay]
    have hidle : isIdle (s.delay d).lastSeen (now + d) config.idleTimeout =
        isIdle s.lastSeen now config.idleTimeout := h now rfl
    dsimp only at hidle ⊢
    rw [hidle]
    split_ifs <;> rfl

/-! ## Summaries -/

/-- A session lasted as long as it lasted. -/
theorem summary_delay (reason : CloseReason) :
    (s.delay d).summary reason = (s.summary reason).delay d := by
  have hduration : s.lastSeen + d - (s.firstSeen + d) = s.lastSeen - s.firstSeen :=
    Int.add_sub_add_right _ _ _
  unfold summary delay
  dsimp only
  rw [hduration]
  rfl

end Session

end FlowWatch
