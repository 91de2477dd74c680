/-
Which decoders a payload is shown to.

As long as nobody has seen a request, a payload within the window goes to the decoders in their order, up
to the first that accepts it, and a payload beyond the window goes to nobody. The decoder that saw the
request is then the only one that is called, once for each payload; after the first exchange it is called
no more, unless it refines. `CallsDue` says this of a payload and of those before it.

What a session remembers of the payloads before is one of four states: `Unsettled` within the window and
beyond it, `Awaiting` a response, and a confirmed protocol. For each there is one lemma that says who is
called, and one that says which payloads lead there.
-/
import FlowWatch.Proofs.Session.Protocol

set_option autoImplicit false

namespace FlowWatch

namespace Registry

variable {r : Registry} {w : Nat} {name : String} {s : Segment}

/-- The decoders up to and including the first that accepts the payload of a segment. -/
def asked (r : Registry) (s : Segment) : List String :=
  (r.decoders.take (r.decoders.findIdx (fun d => (d.accept? s.payload s.seen).isSome) + 1)).map
    (·.name)

/-- The decoder registered under a name takes the payload of a segment for a response. -/
def Responds (r : Registry) (name : String) (s : Segment) : Prop :=
  ∃ response, ((r.find? name).bind fun d => d.accept? s.payload s.seen) = some (.response response)

/-- The first request among some payloads lies within the window of `w + 1`, comes from the decoder
`name`, and is followed by `later`. -/
def Settles (r : Registry) (w : Nat) (before : List Segment) (name : String) (later : List Segment) :
    Prop :=
  ∃ earlier request, before = earlier ++ request :: later ∧ earlier.length ≤ w ∧
    (∀ u ∈ earlier, r.requester? u = none) ∧ r.requester? request = some name

/-- **The calls that are due** for a payload, after those that were heard before. -/
structure CallsDue (r : Registry) (w : Nat) (before : List Segment) (s : Segment)
    (called : List String) : Prop where
  /-- Within the window, and without a request so far. -/
  searching : before.length ≤ w → (∀ u ∈ before, r.requester? u = none) → called = r.asked s
  /-- Past a window without a request. -/
  abandoned : w < before.length → (∀ u ∈ before.take (w + 1), r.requester? u = none) → called = []
  /-- Until the first response of the decoder that saw the request. -/
  awaiting : ∀ name later, r.Settles w before name later → (∀ u ∈ later, ¬r.Responds name u) →
    called = [name]
  /-- After it. -/
  confirmed : ∀ name later, r.Settles w before name later → (∃ u ∈ later, r.Responds name u) →
    called = if r.refines name = true then [name] else []

theorem called_firstAccepting (payload : List UInt8) (seen : Instant) (ds : List Decoder) :
    (firstAccepting payload seen ds).called =
      (ds.take (ds.findIdx (fun d => (d.accept? payload seen).isSome) + 1)).map (·.name) := by
  induction ds with
  | nil => rfl
  | cons d ds ih =>
    rw [firstAccepting, List.findIdx_cons]
    rcases d.accept? payload seen with _ | event
    · simp [ih]
    · simp

theorem called_offer (r : Registry) (s : Segment) :
    (r.offer s.payload s.seen).called = r.asked s :=
  called_firstAccepting s.payload s.seen r.decoders

/-- A decoder under this name is called once. -/
theorem called_offerTo (h : (r.find? name).isSome) (payload : List UInt8) (seen : Instant) :
    (r.offerTo name payload seen).called = [name] := by
  obtain ⟨d, hd⟩ := Option.isSome_iff_exists.mp h
  unfold offerTo
  rw [hd]
  simp [name_of_find? hd]

theorem firstEvent?_of_requester? (h : r.requester? s = some name) :
    ∃ request, r.firstEvent? s = some (name, .request request) := by
  unfold requester? at h
  split at h
  · next request heq =>
    obtain rfl := Option.some.inj h
    exact ⟨request, heq⟩
  · exact absurd h (by simp)

/-- Who has seen a request is registered. -/
theorem isSome_find?_of_requester? (h : r.requester? s = some name) : (r.find? name).isSome := by
  obtain ⟨request, hevent⟩ := firstEvent?_of_requester? h
  obtain ⟨d, hd, hanswer⟩ := List.exists_of_findSome?_eq_some hevent
  obtain ⟨_, -, heq⟩ := Option.map_eq_some_iff.mp hanswer
  unfold find?
  rw [List.find?_isSome]
  exact ⟨d, hd, by simpa using congrArg Prod.fst heq⟩

end Registry

namespace Session

variable {config : Config} {registry : Registry} {s : Session} {k : Nat} {name : String}
  {segment : Segment}

/-- The decoders called for a payload are those of the verdict. -/
theorem calls_inspect (payload : List UInt8) (seen : Instant) :
    (s.inspect config registry payload seen).2.filterMap Notice.decoder? =
      match s.audience? config registry with
      | none => []
      | some audience => (audience.ask registry payload seen).called := by
  have hcalls : ∀ names : List String,
      (names.map Notice.decoderCalled).filterMap Notice.decoder? = names := by
    intro names
    rw [List.filterMap_map]
    exact List.filterMap_some
  -- An exchange is no call.
  have hexchange : ∀ (t : Session) (name : String) (event : AppEvent),
      (t.absorb name event).2.filterMap Notice.decoder? = [] := by
    intro t name event
    cases event with
    | unknown => rfl
    | request request => rfl
    | response response =>
      unfold absorb
      rcases t.pendingRequest with _ | request <;> rfl
  unfold inspect
  rcases s.audience? config registry with _ | audience
  · rfl
  · dsimp only
    rcases (audience.ask registry payload seen).event with _ | ⟨name, event⟩
    · exact hcalls _
    · rw [List.filterMap_append, hcalls, hexchange, List.append_nil]

/-! ## Before the request -/

/-- Payloads without a request are only counted, up to the end of the window. -/
theorem Unsettled.listen_silent (h : s.Unsettled k) (hw : config.maxInspectedSegments < 4294967295)
    {heard : List Segment} (hfits : k + heard.length ≤ config.maxInspectedSegments.toNat + 1)
    (hnone : ∀ u ∈ heard, registry.requester? u = none) :
    (s.listen config registry heard).1.Unsettled (k + heard.length) := by
  induction heard generalizing s k with
  | nil => exact h
  | cons segment heard ih =>
    rw [List.length_cons] at hfits ⊢
    have hstep := h.inspect registry (by omega) hw segment
    rw [hnone segment List.mem_cons_self] at hstep
    have hlast := ih hstep (by omega) fun u hu => hnone u (List.mem_cons_of_mem _ hu)
    rwa [show k + (heard.length + 1) = k + 1 + heard.length by omega]

/-! ## Between the request and the response -/

/-- The decoder `name` has seen a request, and there is no response to it yet. -/
structure Awaiting (registry : Registry) (name : String) (s : Session) : Prop where
  state_eq : s.protocolState = .tentative name
  pending : s.pendingRequest.isSome
  registered : (registry.find? name).isSome

theorem inspect_of_answer {audience : Audience} {event : AppEvent}
    (haudience : s.audience? config registry = some audience)
    (hevent : (audience.ask registry segment.payload segment.seen).event = some (name, event)) :
    (s.inspect config registry segment.payload segment.seen).1 =
      ({ s with inspected := s.inspected + 1 }.absorb name event).1 := by
  unfold inspect
  rw [haudience]
  dsimp only
  rw [hevent]

theorem Unsettled.inspect_request (h : s.Unsettled k)
    (hk : k ≤ config.maxInspectedSegments.toNat) (hw : config.maxInspectedSegments < 4294967295)
    (hrequest : registry.requester? segment = some name) :
    Awaiting registry name (s.inspect config registry segment.payload segment.seen).1 := by
  obtain ⟨request, hevent⟩ := Registry.firstEvent?_of_requester? hrequest
  rw [inspect_of_answer (h.audience?_within hk hw) ((registry.event_offer segment).trans hevent)]
  refine ⟨?_, rfl, Registry.isSome_find?_of_requester? hrequest⟩
  unfold absorb
  dsimp only
  rw [h.state_eq]

namespace Awaiting

theorem audience?_eq (h : Awaiting registry name s) :
    s.audience? config registry = some (.only name) := by
  unfold audience?
  rw [h.state_eq]

theorem event_eq (h : Awaiting registry name s) (segment : Segment) :
    (Audience.ask registry segment.payload segment.seen (.only name)).event =
      ((registry.find? name).bind fun d => d.accept? segment.payload segment.seen).map
        fun event => (name, event) := by
  obtain ⟨d, hd⟩ := Option.isSome_iff_exists.mp h.registered
  obtain rfl := Registry.name_of_find? hd
  unfold Audience.ask Registry.offerTo
  dsimp only
  rw [hd]
  rfl

theorem calls (h : Awaiting registry name s) (config : Config) (payload : List UInt8)
    (seen : Instant) :
    (s.inspect config registry payload seen).2.filterMap Notice.decoder? = [name] := by
  rw [calls_inspect, h.audience?_eq]
  exact Registry.called_offerTo h.registered payload seen

/-- Nothing but a response ends the waiting. -/
theorem inspect (h : Awaiting registry name s) (config : Config)
    (hsegment : ¬registry.Responds name segment) :
    Awaiting registry name (s.inspect config registry segment.payload segment.seen).1 := by
  have hevent := h.event_eq segment
  rcases hanswer : (registry.find? name).bind
      fun d => d.accept? segment.payload segment.seen with _ | _ | request | response
  · rw [hanswer] at hevent
    unfold Session.inspect
    rw [h.audience?_eq]
    dsimp only
    rw [hevent]
    exact ⟨h.state_eq, h.pending, h.registered⟩
  · rw [hanswer] at hevent
    rw [inspect_of_answer h.audience?_eq hevent]
    exact ⟨h.state_eq, h.pending, h.registered⟩
  · -- A second request replaces the pending one.
    rw [hanswer] at hevent
    rw [inspect_of_answer h.audience?_eq hevent]
    refine ⟨?_, rfl, h.registered⟩
    unfold absorb
    dsimp only
    rw [h.state_eq]
  · exact absurd ⟨response, hanswer⟩ hsegment

/-- A response makes an exchange. -/
theorem inspect_response (h : Awaiting registry name s) (config : Config)
    (hsegment : registry.Responds name segment) :
    (s.inspect config registry segment.payload segment.seen).1.protocolState =
      .confirmed name := by
  obtain ⟨response, hresponse⟩ := hsegment
  obtain ⟨request, hpending⟩ := Option.isSome_iff_exists.mp h.pending
  have hevent := h.event_eq segment
  rw [hresponse] at hevent
  rw [inspect_of_answer h.audience?_eq hevent]
  unfold absorb
  dsimp only
  rw [hpending]

end Awaiting

/-! ## After the first exchange -/

/-- A confirmed protocol stays confirmed. -/
theorem confirmed_inspect (h : s.protocolState = .confirmed name) (payload : List UInt8)
    (seen : Instant) :
    (s.inspect config registry payload seen).1.protocolState = .confirmed name := by
  unfold inspect
  rcases haudience : s.audience? config registry with _ | audience
  · exact h
  · -- Only the confirmed decoder is asked, so an exchange can confirm no other name.
    obtain rfl := name_of_audience (congrArg ProtocolState.name? h) haudience
    dsimp only
    rcases hevent : (Audience.ask registry payload seen (.only name)).event with _ | ⟨other, event⟩
    · exact h
    · obtain rfl := Registry.name_offerTo hevent
      cases event with
      | unknown => exact h
      | request request =>
        unfold absorb
        dsimp only
        rw [h]
      | response response =>
        unfold absorb
        dsimp only
        rcases s.pendingRequest with _ | request
        · exact h
        · rfl

theorem confirmed_listen (h : s.protocolState = .confirmed name) (heard : List Segment) :
    (s.listen config registry heard).1.protocolState = .confirmed name := by
  induction heard generalizing s with
  | nil => exact h
  | cons segment heard ih => exact ih (confirmed_inspect h segment.payload segment.seen)

theorem calls_of_confirmed (h : s.protocolState = .confirmed name) (payload : List UInt8)
    (seen : Instant) :
    (s.inspect config registry payload seen).2.filterMap Notice.decoder? =
      if registry.refines name = true then [name] else [] := by
  have haudience : s.audience? config registry =
      if registry.refines name = true then some (.only name) else none := by
    unfold audience?
    rw [h]
  rw [calls_inspect, haudience]
  by_cases hrefines : registry.refines name = true
  · rw [if_pos hrefines, if_pos hrefines]
    -- A name under which nobody is registered does not refine.
    have hregistered : (registry.find? name).isSome := by
      unfold Registry.refines at hrefines
      rcases hfind : registry.find? name with _ | d
      · rw [hfind] at hrefines
        exact absurd hrefines Bool.false_ne_true
      · rfl
    exact Registry.called_offerTo hregistered payload seen
  · rw [if_neg hrefines, if_neg hrefines]

namespace Awaiting

theorem listen (h : Awaiting registry name s) {heard : List Segment}
    (hnone : ∀ u ∈ heard, ¬registry.Responds name u) :
    Awaiting registry name (s.listen config registry heard).1 := by
  induction heard generalizing s with
  | nil => exact h
  | cons segment heard ih =>
    exact ih (h.inspect config (hnone segment List.mem_cons_self))
      fun u hu => hnone u (List.mem_cons_of_mem _ hu)

theorem listen_response (h : Awaiting registry name s) {heard : List Segment}
    (hsome : ∃ u ∈ heard, registry.Responds name u) :
    (s.listen config registry heard).1.protocolState = .confirmed name := by
  induction heard generalizing s with
  | nil => exact absurd hsome (by simp)
  | cons segment heard ih =>
    by_cases hfirst : registry.Responds name segment
    · exact confirmed_listen (h.inspect_response config hfirst) heard
    · obtain ⟨u, hu, hresponds⟩ := hsome
      -- The first payload is no response, so the response is among the later ones.
      refine ih (h.inspect config hfirst) ⟨u, ?_, hresponds⟩
      rcases List.mem_cons.mp hu with rfl | hlater
      · exact absurd hresponds hfirst
      · exact hlater

end Awaiting

/-! ## From the first payload on -/

/-- The request that settles the protocol is waiting after it. -/
theorem awaiting_of_settles (key : Flow) (now : Instant)
    (hw : config.maxInspectedSegments < 4294967295) {earlier later : List Segment}
    (hearlier : earlier.length ≤ config.maxInspectedSegments.toNat)
    (hnone : ∀ u ∈ earlier, registry.requester? u = none)
    (hrequest : registry.requester? segment = some name) :
    ∃ t, Awaiting registry name t ∧
      ((Session.new key now).listen config registry (earlier ++ segment :: later)).1 =
        (t.listen config registry later).1 := by
  have hunsettled : ((Session.new key now).listen config registry earlier).1.Unsettled
      (0 + earlier.length) := (Unsettled.new key now).listen_silent hw (by omega) hnone
  refine ⟨_, hunsettled.inspect_request (by omega) hw hrequest, ?_⟩
  rw [listen_append]
  rfl

/-- **A payload calls the decoders that are due.** -/
theorem callsDue_inspect (registry : Registry) (key : Flow) (now : Instant)
    (hw : config.maxInspectedSegments < 4294967295) (before : List Segment) (segment : Segment) :
    registry.CallsDue config.maxInspectedSegments.toNat before segment
      ((((Session.new key now).listen config registry before).1.inspect config registry
        segment.payload segment.seen).2.filterMap Notice.decoder?) := by
  refine ⟨?_, ?_, ?_, ?_⟩
  · intro hlength hnone
    have hunsettled := (Unsettled.new key now).listen_silent hw (by omega) hnone
    rw [calls_inspect, hunsettled.audience?_within (by omega) hw]
    exact registry.called_offer segment
  · intro hlength hnone
    -- The window is used up, and what came after it was not looked at.
    have htake : (before.take (config.maxInspectedSegments.toNat + 1)).length =
        config.maxInspectedSegments.toNat + 1 := by
      rw [List.length_take]
      omega
    have hunsettled := (Unsettled.new key now).listen_silent hw (by omega) hnone
    rw [Nat.zero_add, htake] at hunsettled
    rw [← List.take_append_drop (config.maxInspectedSegments.toNat + 1) before, listen_append,
      hunsettled.listen_past hw, hunsettled.inspect_past hw]
    rfl
  · rintro name later ⟨earlier, request, rfl, hearlier, hnone, hrequest⟩ hwaiting
    obtain ⟨t, hawaiting, hlisten⟩ := awaiting_of_settles key now hw hearlier hnone hrequest
    rw [hlisten]
    exact (hawaiting.listen hwaiting).calls config segment.payload segment.seen
  · rintro name later ⟨earlier, request, rfl, hearlier, hnone, hrequest⟩ hresponse
    obtain ⟨t, hawaiting, hlisten⟩ := awaiting_of_settles key now hw hearlier hnone hrequest
    rw [hlisten]
    exact calls_of_confirmed (hawaiting.listen_response hresponse) segment.payload segment.seen

end Session

end FlowWatch
