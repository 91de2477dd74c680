/-
Requests and the responses to them.

A conversation is a list of turns, each a request and the response to it, carried by one segment each.
Among the payloads that a session hears there may be others in between, as long as they do not open like
HTTP. `Conversing` says how far the conversation has come: which turn still waits for its response, which
turns are to come, and that the session will look at the next message. One payload more keeps it, and it
completes an exchange exactly if it is the response that is due.
-/
import FlowWatch.Proofs.Http.Messages
import FlowWatch.Proofs.Session.Protocol

set_option autoImplicit false

namespace FlowWatch

/-- Whether a notice is an exchange. -/
def Notice.isExchange : Notice → Bool
  | .exchange .. => true
  | _ => false

/-- A request and the response to it, with the segments that carry them. -/
structure HttpTurn where
  request : Http.RequestMessage
  response : Http.ResponseMessage
  asked : Segment
  answered : Segment
  asked_payload : asked.payload = request.bytes
  answered_payload : answered.payload = response.bytes

namespace HttpTurn

variable (t : HttpTurn)

/-- The two segments in their order. -/
def segments : List Segment := [t.asked, t.answered]

/-- The request as it is seen. -/
def seenRequest : SeenRequest :=
  ⟨Http.protocolName, String.ofList t.request.method, String.ofList t.request.target.text,
    t.request.host, t.asked.seen⟩

/-- The exchange that the turn makes. -/
def exchange : Exchange where
  protocol := Http.protocolName
  method := String.ofList t.request.method
  host := t.request.host
  target := String.ofList t.request.target.text
  status := t.response.status
  requestedAt := t.asked.seen
  latency := t.answered.seen - t.asked.seen

end HttpTurn

/-- Whether the payload of a segment opens like HTTP. -/
def Segment.isHttp (s : Segment) : Bool := Http.isGated s.payload

namespace Session

/-- What precedes the first message among some segments. -/
def leadOf (heard : List Segment) : List Segment := heard.takeWhile fun s => !s.isHttp

/-- The session looks at the next message that is to come: the decoder is known, or the window reaches
far enough. -/
def Attends (config : Config) (s : Session) (heard : List Segment) : Prop :=
  s.protocolState.name? = some Http.protocolName ∨
    s.protocolState = .unknown ∧ (heard.any Segment.isHttp = true →
      s.inspected.toNat + (leadOf heard).length ≤ config.maxInspectedSegments.toNat)

/-- A session in the middle of a conversation. -/
structure Conversing (config : Config) (s : Session) (due : Option HttpTurn) (turns : List HttpTurn)
    (heard : List Segment) : Prop where
  pending_eq : s.pendingRequest = due.map HttpTurn.seenRequest
  attends : s.Attends config heard
  messages_eq : heard.filter Segment.isHttp =
    (due.map HttpTurn.answered).toList ++ turns.flatMap HttpTurn.segments

variable {config : Config} {s : Session} {due : Option HttpTurn} {turns : List HttpTurn}
  {segment : Segment} {heard : List Segment}

/-! ## The only decoder -/

/-- Everybody who may be asked is the HTTP decoder. -/
theorem ask_standard {audience : Audience}
    (h : audience = .all ∨ audience = .only Http.protocolName) (payload : List UInt8)
    (seen : Instant) :
    audience.ask .standard payload seen = ⟨[Http.protocolName],
      ((Http.decoder Http.protocolName).accept? payload seen).map (Http.protocolName, ·)⟩ := by
  rcases h with rfl | rfl
  · show Registry.firstAccepting payload seen [Http.decoder Http.protocolName] = _
    rw [Registry.firstAccepting]
    rcases (Http.decoder Http.protocolName).accept? payload seen with _ | event <;> rfl
  · rfl

/-- A session that attends asks nobody else. -/
theorem Attends.audience_eq (h : s.Attends config heard) {audience : Audience}
    (ha : s.audience? config .standard = some audience) :
    audience = .all ∨ audience = .only Http.protocolName := by
  rcases h with hname | ⟨hunknown, -⟩
  · exact .inr (name_of_audience hname ha)
  · unfold audience? at ha
    rw [hunknown] at ha
    dsimp only at ha
    split_ifs at ha
    exact .inl (Option.some.inj ha).symm

/-- While a message is to come, a session that attends asks. -/
theorem Attends.asks (h : s.Attends config heard) (hany : heard.any Segment.isHttp = true) :
    ∃ audience, s.audience? config .standard = some audience := by
  have hrefines : Registry.standard.refines Http.protocolName = true := by decide
  unfold audience?
  rcases h with hname | ⟨hunknown, hwindow⟩
  · rcases hstate : s.protocolState with _ | name | name
    · rw [hstate] at hname
      exact absurd hname (by simp [ProtocolState.name?])
    · exact ⟨_, rfl⟩
    · rw [hstate] at hname
      obtain rfl := Option.some.inj hname
      exact ⟨_, if_pos hrefines⟩
  · have hinspected : s.inspected ≤ config.maxInspectedSegments := by
      show s.inspected.toNat ≤ config.maxInspectedSegments.toNat
      exact (Nat.le_add_right _ _).trans (hwindow hany)
    rw [hunknown]
    exact ⟨_, if_pos hinspected⟩

/-- What a session makes of the next message: what it makes of the event that the decoder sees in it. -/
theorem Attends.inspect_message (h : s.Attends config (segment :: heard)) (hs : segment.isHttp = true)
    {event : AppEvent}
    (he : (Http.decoder Http.protocolName).accept? segment.payload segment.seen = some event) :
    let counted := { s with inspected := s.inspected + 1 }
    s.inspect config .standard segment.payload segment.seen =
      ((counted.absorb Http.protocolName event).1,
        .decoderCalled Http.protocolName :: (counted.absorb Http.protocolName event).2) := by
  obtain ⟨audience, ha⟩ := h.asks (by rw [List.any_cons, hs, Bool.true_or])
  unfold inspect
  rw [ha]
  dsimp only
  rw [ask_standard (h.audience_eq ha), he]
  rfl

/-! ## One payload -/

/-- After one payload that is no message a session still attends, whether it was counted or not. -/
theorem Attends.tail (h : s.Attends config (segment :: heard)) (hs : segment.isHttp = false) :
    s.Attends config heard ∧
      ((s.audience? config .standard).isSome = true →
        Attends config { s with inspected := s.inspected + 1 } heard) := by
  have hlead : leadOf (segment :: heard) = segment :: leadOf heard :=
    List.takeWhile_cons_of_pos (by rw [hs]; rfl)
  have hany : (segment :: heard).any Segment.isHttp = heard.any Segment.isHttp := by
    rw [List.any_cons, hs, Bool.false_or]
  rcases h with hname | ⟨hunknown, hwindow⟩
  · exact ⟨.inl hname, fun _ => .inl hname⟩
  · rw [hlead, hany, List.length_cons] at hwindow
    refine ⟨.inr ⟨hunknown, fun h => ?_⟩, fun _ => .inr ⟨hunknown, fun h => ?_⟩⟩
    · exact (Nat.le_succ _).trans (hwindow h)
    · -- The counter does not wrap, since it stays within the window.
      have hbound := config.maxInspectedSegments.toNat_lt
      have hnext : (s.inspected + 1).toNat = s.inspected.toNat + 1 := by
        rw [UInt32.toNat_add]
        apply Nat.mod_eq_of_lt
        have := hwindow h
        show s.inspected.toNat + 1 < 4294967296
        omega
      show (s.inspected + 1).toNat + _ ≤ _
      have := hwindow h
      omega

namespace Conversing

/-- A payload that does not open like HTTP leaves the conversation where it is. -/
theorem other (h : Conversing config s due turns (segment :: heard)) (hs : segment.isHttp = false) :
    Conversing config (s.inspect config .standard segment.payload segment.seen).1 due turns heard ∧
      (s.inspect config .standard segment.payload segment.seen).2.filter Notice.isExchange = [] := by
  have hmessages := h.messages_eq
  rw [List.filter_cons_of_neg (by rw [hs]; exact Bool.false_ne_true)] at hmessages
  have hrefused : (Http.decoder Http.protocolName).accept? segment.payload segment.seen = none := by
    unfold Decoder.accept?
    rw [Http.decode_of_not_gated hs]
  obtain ⟨hsame, hcounted⟩ := h.attends.tail hs
  unfold Session.inspect
  rcases ha : s.audience? config .standard with _ | audience
  · exact ⟨⟨h.pending_eq, hsame, hmessages⟩, rfl⟩
  · dsimp only
    rw [ask_standard (h.attends.audience_eq ha), hrefused]
    exact ⟨⟨h.pending_eq, hcounted (by rw [ha]; rfl), hmessages⟩, rfl⟩

/-- The request of the next turn is seen, and then its response is due. -/
theorem request {t : HttpTurn} (h : Conversing config s none (t :: turns) (segment :: heard))
    (hs : segment.isHttp = true) :
    Conversing config (s.inspect config .standard segment.payload segment.seen).1 (some t) turns
        heard ∧
      (s.inspect config .standard segment.payload segment.seen).2.filter Notice.isExchange = [] := by
  have hmessages := h.messages_eq
  rw [List.filter_cons_of_pos hs] at hmessages
  obtain ⟨rfl, hlater⟩ := List.cons.inj hmessages
  have hevent := t.request.accept?_bytes Http.protocolName t.asked.seen
  rw [← t.asked_payload] at hevent
  rw [h.attends.inspect_message hs hevent]
  refine ⟨⟨rfl, .inl ?_, hlater⟩, rfl⟩
  apply name?_absorb_request
  rcases h.attends with hname | ⟨hunknown, -⟩
  · exact .inr hname
  · exact .inl hunknown

/-- The response that is due completes the exchange. -/
theorem response {t : HttpTurn} (h : Conversing config s (some t) turns (segment :: heard))
    (hs : segment.isHttp = true) :
    Conversing config (s.inspect config .standard segment.payload segment.seen).1 none turns heard ∧
      (s.inspect config .standard segment.payload segment.seen).2.filter Notice.isExchange =
        [.exchange s.key t.exchange] := by
  have hmessages := h.messages_eq
  rw [List.filter_cons_of_pos hs] at hmessages
  obtain ⟨rfl, hlater⟩ := List.cons.inj hmessages
  have hevent := t.response.accept?_bytes Http.protocolName t.answered.seen
  rw [← t.answered_payload] at hevent
  rw [h.attends.inspect_message hs hevent]
  unfold absorb
  dsimp only
  rw [h.pending_eq]
  exact ⟨⟨rfl, .inl rfl, hlater⟩, rfl⟩

/-! ## All payloads -/

/-- **A conversation makes one exchange for each turn**, in their order. -/
theorem listen (h : Conversing config s due turns heard) :
    (s.listen config .standard heard).2.filter Notice.isExchange =
      (due.toList ++ turns).map fun t => .exchange s.key t.exchange := by
  induction heard generalizing s due turns with
  | nil =>
    have hmessages := h.messages_eq
    rcases due with _ | t
    · rcases turns with _ | ⟨t, turns⟩
      · rfl
      · exact absurd hmessages (List.cons_ne_nil _ _).symm
    · exact absurd hmessages (List.cons_ne_nil _ _).symm
  | cons segment heard ih =>
    have hkey := s.key_inspect config .standard segment.payload segment.seen
    rw [Session.listen, List.filter_append]
    rcases hs : segment.isHttp with _ | _
    · obtain ⟨hnext, htold⟩ := h.other hs
      rw [htold, ih hnext, hkey]
      rfl
    · rcases due with _ | t
      · rcases turns with _ | ⟨t, turns⟩
        · -- No message is left, but here is one.
          have hmessages := h.messages_eq
          rw [List.filter_cons_of_pos hs] at hmessages
          exact absurd hmessages (List.cons_ne_nil _ _)
        · obtain ⟨hnext, htold⟩ := h.request hs
          rw [htold, ih hnext, hkey]
          rfl
      · obtain ⟨hnext, htold⟩ := h.response hs
        rw [htold, ih hnext, hkey]
        rfl

/-- A session that has just been opened is at the beginning of its conversation. -/
theorem new (key : Flow) (now : Instant)
    (hmessages : heard.filter Segment.isHttp = turns.flatMap HttpTurn.segments)
    (hlead : turns ≠ [] → (leadOf heard).length ≤ config.maxInspectedSegments.toNat) :
    Conversing config (Session.new key now) none turns heard where
  pending_eq := rfl
  attends := by
    refine .inr ⟨rfl, ?_⟩
    intro hany
    show 0 + _ ≤ _
    rw [Nat.zero_add]
    apply hlead
    rintro rfl
    obtain ⟨segment, hmem, hs⟩ := List.any_eq_true.mp hany
    have hin : segment ∈ heard.filter Segment.isHttp := List.mem_filter.mpr ⟨hmem, hs⟩
    rw [hmessages] at hin
    exact absurd hin List.not_mem_nil
  messages_eq := hmessages

end Conversing

end Session

end FlowWatch
