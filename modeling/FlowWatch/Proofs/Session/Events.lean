/-
The events a session gets, and the exchanges it makes of them.

The decoders answer a payload with at most one event: none if nobody was asked or everybody refused. A
session keeps one request pending, and in `Paired` this memory meets the pairs that the events determine:
the pending request is the latest one, with no paired response behind it, and if none is pending then
every request has a paired response behind it. So a response finds a pending request exactly if it
belongs into a pair. A second pair needs a decoder that is asked after the first, hence one that refines.
-/
import FlowWatch.Proofs.Protocol.EventPairs
import FlowWatch.Proofs.Session.Pairing

set_option autoImplicit false

namespace FlowWatch

namespace Session

variable {config : Config} {registry : Registry} {s : Session} {segment : Segment}

/-- The event that a session gets for a payload, if somebody is asked and accepts it. -/
def event? (config : Config) (registry : Registry) (s : Session) (segment : Segment) :
    Option AppEvent :=
  (s.audience? config registry).bind fun audience =>
    (audience.ask registry segment.payload segment.seen).event.map (·.2)

/-- The events for the payloads of some segments, one place for each of them. -/
def events (config : Config) (registry : Registry) (s : Session) :
    List Segment → List (Option AppEvent)
  | [] => []
  | segment :: segments =>
    s.event? config registry segment ::
      (s.inspect config registry segment.payload segment.seen).1.events config registry segments

theorem length_events (heard : List Segment) :
    (s.events config registry heard).length = heard.length := by
  induction heard generalizing s with
  | nil => rfl
  | cons segment heard ih => exact congrArg (· + 1) ih

theorem events_append_singleton (heard : List Segment) :
    s.events config registry (heard ++ [segment]) = s.events config registry heard ++
      [(s.listen config registry heard).1.event? config registry segment] := by
  induction heard generalizing s with
  | nil => rfl
  | cons other heard ih => exact congrArg (List.cons _) ih

theorem listen_append_singleton (heard : List Segment) :
    s.listen config registry (heard ++ [segment]) =
      let before := s.listen config registry heard
      let turn := before.1.inspect config registry segment.payload segment.seen
      (turn.1, before.2 ++ turn.2) := by
  rw [listen_append]
  simp [listen]

/-! ### One payload -/

theorem filter_isExchange_calls (names : List String) :
    (names.map Notice.decoderCalled).filter Notice.isExchange = [] := by
  refine List.filter_eq_nil_iff.mpr ?_
  intro n hn
  obtain ⟨name, -, rfl⟩ := List.mem_map.mp hn
  exact Bool.false_ne_true

/-- What an event leaves is what absorbing it leaves, and the calls tell no exchange. -/
theorem inspect_of_event {event : AppEvent} (h : s.event? config registry segment = some event) :
    ∃ audience name, s.audience? config registry = some audience ∧
      (audience.ask registry segment.payload segment.seen).event = some (name, event) ∧
      let absorbed := { s with inspected := s.inspected + 1 }.absorb name event
      let turn := s.inspect config registry segment.payload segment.seen
      turn.1 = absorbed.1 ∧ turn.2.filter Notice.isExchange = absorbed.2.filter Notice.isExchange := by
  unfold event? at h
  obtain ⟨audience, haudience, hanswer⟩ := Option.bind_eq_some_iff.mp h
  obtain ⟨⟨name, _⟩, hevent, rfl⟩ := Option.map_eq_some_iff.mp hanswer
  refine ⟨audience, name, haudience, hevent, ?_⟩
  unfold inspect
  rw [haudience]
  dsimp only
  rw [hevent, List.filter_append, filter_isExchange_calls, List.nil_append]
  exact ⟨rfl, rfl⟩

/-- A payload that nobody is asked about or that nobody accepts is counted at most. -/
theorem inspect_of_no_event (h : s.event? config registry segment = none) :
    let turn := s.inspect config registry segment.payload segment.seen
    (∃ n, turn.1 = { s with inspected := n }) ∧ turn.2.filter Notice.isExchange = [] := by
  unfold event? at h
  unfold inspect
  rcases haudience : s.audience? config registry with _ | audience
  · exact ⟨⟨s.inspected, rfl⟩, rfl⟩
  · rw [haudience, Option.bind_some, Option.map_eq_none_iff] at h
    dsimp only
    rw [h]
    exact ⟨⟨_, rfl⟩, filter_isExchange_calls _⟩

theorem inspect_of_unknown (h : s.event? config registry segment = some .unknown) :
    let turn := s.inspect config registry segment.payload segment.seen
    turn.1 = { s with inspected := s.inspected + 1 } ∧ turn.2.filter Notice.isExchange = [] := by
  obtain ⟨_, _, -, -, hnext, htold⟩ := inspect_of_event h
  exact ⟨hnext, htold⟩

/-- A request becomes the pending one. A protocol that an exchange has confirmed stays. -/
theorem inspect_of_request {request : SeenRequest}
    (h : s.event? config registry segment = some (.request request)) :
    let turn := s.inspect config registry segment.payload segment.seen
    (∃ state, turn.1 = { s with
        inspected := s.inspected + 1
        pendingRequest := some request
        protocolState := state } ∧
      ∀ known, s.protocolState = .confirmed known → state = .confirmed known) ∧
      turn.2.filter Notice.isExchange = [] := by
  obtain ⟨_, name, -, -, hnext, htold⟩ := inspect_of_event h
  refine ⟨⟨_, hnext, ?_⟩, htold⟩
  intro known hknown
  dsimp only
  rw [hknown]

/-- A response without a pending request is a payload like any other. -/
theorem inspect_of_unasked {response : SeenResponse} (hpending : s.pendingRequest = none)
    (h : s.event? config registry segment = some (.response response)) :
    let turn := s.inspect config registry segment.payload segment.seen
    turn.1 = { s with inspected := s.inspected + 1 } ∧ turn.2.filter Notice.isExchange = [] := by
  obtain ⟨_, _, -, -, hnext, htold⟩ := inspect_of_event h
  unfold absorb at hnext htold
  dsimp only at hnext htold
  rw [hpending] at hnext htold
  exact ⟨hnext.trans (by rw [hpending]), htold⟩

/-- A response completes the pending request. Only a decoder that refines is asked again after that. -/
theorem inspect_of_response {request : SeenRequest} {response : SeenResponse}
    (hpending : s.pendingRequest = some request)
    (h : s.event? config registry segment = some (.response response)) :
    let turn := s.inspect config registry segment.payload segment.seen
    (∃ name, turn.1 = { s with
        inspected := 0
        pendingRequest := none
        exchanges := s.exchanges + 1
        protocolState := .confirmed name } ∧
      ∀ known, s.protocolState = .confirmed known → name = known ∧ registry.refines known = true) ∧
      turn.2.filter Notice.isExchange = [.exchange s.key (.ofPair request response)] := by
  obtain ⟨audience, name, haudience, hevent, hnext, htold⟩ := inspect_of_event h
  unfold absorb at hnext htold
  dsimp only at hnext htold
  rw [hpending] at hnext htold
  refine ⟨⟨name, hnext, ?_⟩, htold⟩
  intro known hknown
  unfold audience? at haudience
  rw [hknown] at haudience
  dsimp only at haudience
  by_cases hrefines : registry.refines known = true
  · rw [if_pos hrefines] at haudience
    obtain rfl := Option.some.inj haudience
    exact ⟨Registry.name_offerTo hevent, hrefines⟩
  · rw [if_neg hrefines] at haudience
    exact absurd haudience (by simp)

/-! ### The pairs that a session makes -/

/-- What a session has made of its events, and what it has told of them. -/
structure Paired (registry : Registry) (key : Flow) (events : List (Option AppEvent))
    (pairs : List EventPair) (told : List Notice) (s : Session) : Prop where
  pairing : Pairing events pairs
  key_eq : s.key = key
  told_eq : told.filter Notice.isExchange = pairs.map fun p => .exchange key p.exchange
  count_eq : s.exchanges = UInt64.ofNat pairs.length
  /-- With nothing pending, every request lies before a paired response. -/
  idle : s.pendingRequest = none → ∀ i, RequestAt events i → ∃ p ∈ pairs, i < p.answered
  /-- The pending request is the latest one, and waits. -/
  pending : ∀ request, s.pendingRequest = some request →
    ∃ i, events[i]? = some (some (.request request)) ∧ (∀ k, i < k → ¬RequestAt events k) ∧
      ∀ p ∈ pairs, p.answered < i
  confirmed : pairs ≠ [] → ∃ known, s.protocolState = .confirmed known ∧
    (1 < pairs.length → registry.refines known = true)

namespace Paired

variable {key : Flow} {events : List (Option AppEvent)} {pairs : List EventPair}
  {told notices : List Notice} {t : Session} {event : Option AppEvent}

theorem new (registry : Registry) (key : Flow) (now : Instant) :
    Paired registry key [] [] [] (Session.new key now) := by
  refine ⟨.nil, rfl, rfl, rfl, ?_, ?_, ?_⟩
  · intro _ i hi
    exact absurd hi.lt (Nat.not_lt_zero i)
  · intro request hrequest
    exact absurd hrequest (by simp [Session.new])
  · intro hne
    exact absurd rfl hne

/-- An event that is no request, and no response to one, changes no pair. -/
theorem silent (h : Paired registry key events pairs told s)
    (hrequest : ¬∃ request, event = some (.request request))
    (hresponse : (∃ response, event = some (.response response)) → s.pendingRequest = none)
    (hnext : ∃ n, t = { s with inspected := n }) (htold : notices.filter Notice.isExchange = []) :
    Paired registry key (events ++ [event]) pairs (told ++ notices) t := by
  obtain ⟨n, rfl⟩ := hnext
  have hplaces : ∀ i, RequestAt (events ++ [event]) i → RequestAt events i := by
    intro i hi
    have hlt : i < events.length + 1 := by simpa using hi.lt
    by_cases hlast : i = events.length
    · exact absurd (requestAt_last.mp (hlast ▸ hi)) hrequest
    · exact (requestAt_append (by omega)).mp hi
  refine ⟨?_, h.key_eq, ?_, h.count_eq, ?_, ?_, h.confirmed⟩
  · refine h.pairing.append_unpaired ?_
    intro hlast
    exact h.idle (hresponse (responseAt_last.mp hlast))
  · rw [List.filter_append, htold, List.append_nil]
    exact h.told_eq
  -- No request has come, so the pending one is still the latest.
  · intro hnone i hi
    exact h.idle hnone i (hplaces i hi)
  · intro request hpending
    obtain ⟨i, hi, hlatest, hfree⟩ := h.pending request hpending
    refine ⟨i, ?_, fun k hik hk => hlatest k hik (hplaces k hk), hfree⟩
    rw [List.getElem?_append_left (RequestAt.lt ⟨request, hi⟩)]
    exact hi

/-- A request takes the place of the one that was pending. -/
theorem request (h : Paired registry key events pairs told s) {request : SeenRequest}
    (hevent : s.event? config registry segment = some (.request request)) :
    Paired registry key (events ++ [some (.request request)]) pairs
      (told ++ (s.inspect config registry segment.payload segment.seen).2)
      (s.inspect config registry segment.payload segment.seen).1 := by
  obtain ⟨⟨state, hnext, hstate⟩, htold⟩ := inspect_of_request hevent
  rw [hnext]
  refine ⟨?_, h.key_eq, ?_, h.count_eq, ?_, ?_, ?_⟩
  · refine h.pairing.append_unpaired ?_
    intro hlast
    obtain ⟨response, hresponse⟩ := responseAt_last.mp hlast
    exact absurd hresponse (by simp)
  · rw [List.filter_append, htold, List.append_nil]
    exact h.told_eq
  · intro hnone
    exact absurd hnone (by simp)
  · -- The new request stands at the last place, behind all pairs.
    intro pending hpending
    obtain rfl := Option.some.inj hpending
    refine ⟨events.length, List.getElem?_concat_length, ?_, fun p hp => h.pairing.answered_lt hp⟩
    intro k hk hrequest
    have hlt := hrequest.lt
    rw [List.length_append, List.length_singleton] at hlt
    omega
  · intro hne
    obtain ⟨known, hknown, hrefines⟩ := h.confirmed hne
    exact ⟨known, hstate known hknown, hrefines⟩

/-- A response makes a pair of itself and the pending request. -/
theorem response (h : Paired registry key events pairs told s) {request : SeenRequest}
    {response : SeenResponse} (hpending : s.pendingRequest = some request)
    (hevent : s.event? config registry segment = some (.response response)) :
    ∃ p : EventPair, p.answered = events.length ∧
      Paired registry key (events ++ [some (.response response)]) (pairs ++ [p])
        (told ++ (s.inspect config registry segment.payload segment.seen).2)
        (s.inspect config registry segment.payload segment.seen).1 := by
  obtain ⟨⟨name, hnext, hname⟩, htold⟩ := inspect_of_response hpending hevent
  obtain ⟨i, hi, hlatest, hfree⟩ := h.pending request hpending
  refine ⟨⟨i, request, events.length, response⟩, rfl, ?_⟩
  rw [hnext]
  refine ⟨h.pairing.append_paired hi hlatest hfree response, h.key_eq, ?_, ?_, ?_, ?_, ?_⟩
  · rw [List.filter_append, htold, h.told_eq, h.key_eq, List.map_append]
    rfl
  · show s.exchanges + 1 = _
    rw [h.count_eq, List.length_append, List.length_singleton]
    exact (UInt64.ofNat_add pairs.length 1).symm
  · -- All requests lie before the new response.
    intro _ k hk
    refine ⟨_, List.mem_append_right _ (List.mem_singleton_self _), ?_⟩
    have hlt : k < events.length + 1 := by simpa using hk.lt
    by_cases hlast : k = events.length
    · obtain ⟨other, hother⟩ := requestAt_last.mp (hlast ▸ hk)
      exact absurd hother (by simp)
    · show k < events.length
      omega
  · intro other hother
    exact absurd hother (by simp)
  · -- With a pair before this one the decoder had been confirmed, and was asked again.
    intro _
    refine ⟨name, rfl, ?_⟩
    intro hmany
    rw [List.length_append, List.length_singleton] at hmany
    obtain ⟨known, hknown, -⟩ := h.confirmed (List.ne_nil_of_length_pos (by omega))
    obtain ⟨rfl, hrefines⟩ := hname known hknown
    exact hrefines

/-- **One payload more.** It makes a pair, or it makes none and is then no response that changes
anything. -/
theorem inspect (h : Paired registry key events pairs told s) (config : Config) (segment : Segment) :
    let turn := s.inspect config registry segment.payload segment.seen
    let heard := events ++ [s.event? config registry segment]
    (Paired registry key heard pairs (told ++ turn.2) turn.1 ∧
        (ResponseAt heard events.length → turn.1 = { s with inspected := s.inspected + 1 })) ∨
      ∃ p : EventPair, p.answered = events.length ∧
        Paired registry key heard (pairs ++ [p]) (told ++ turn.2) turn.1 := by
  dsimp only
  rcases hevent : s.event? config registry segment with _ | _ | request | response
  · obtain ⟨hnext, htold⟩ := inspect_of_no_event hevent
    refine .inl ⟨h.silent (by simp) (by simp) hnext htold, ?_⟩
    intro hlast
    exact absurd (responseAt_last.mp hlast) (by simp)
  · obtain ⟨hnext, htold⟩ := inspect_of_unknown hevent
    exact .inl ⟨h.silent (by simp) (by simp) ⟨_, hnext⟩ htold, fun _ => hnext⟩
  · refine .inl ⟨h.request hevent, ?_⟩
    intro hlast
    exact absurd (responseAt_last.mp hlast) (by simp)
  · obtain hpending | ⟨request, hpending⟩ := Option.eq_none_or_eq_some s.pendingRequest
    · obtain ⟨hnext, htold⟩ := inspect_of_unasked hpending hevent
      exact .inl ⟨h.silent (by simp) (fun _ => hpending) ⟨_, hnext⟩ htold, fun _ => hnext⟩
    · exact .inr (h.response hpending hevent)

/-- A decoder that does not refine makes one exchange at most. -/
theorem length_le_one (h : Paired registry key events pairs told s) {known : String}
    (hknown : s.protocolState.name? = some known) (hrefines : registry.refines known = false) :
    pairs.length ≤ 1 := by
  by_contra hmany
  obtain ⟨confirmed, hstate, hagain⟩ := h.confirmed (List.ne_nil_of_length_pos (by omega))
  rw [hstate] at hknown
  obtain rfl := Option.some.inj hknown
  exact absurd ((hagain (by omega)).symm.trans hrefines) (by simp)

end Paired

/-- The payload at a place changes nothing but the number of inspected ones. -/
def Ignores (config : Config) (registry : Registry) (s : Session) (heard : List Segment) (j : Nat) :
    Prop :=
  let before := (s.listen config registry (heard.take j)).1
  (s.listen config registry (heard.take (j + 1))).1 =
    { before with inspected := before.inspected + 1 }

/-- **A session pairs its events.** Responses without a pair are ignored. -/
theorem exists_paired (config : Config) (registry : Registry) (key : Flow) (now : Instant)
    (heard : List Segment) :
    let first := Session.new key now
    let events := first.events config registry heard
    let last := first.listen config registry heard
    ∃ pairs, Paired registry key events pairs last.2 last.1 ∧
      ∀ j, ResponseAt events j → (∀ p ∈ pairs, p.answered ≠ j) →
        first.Ignores config registry heard j := by
  intro first
  induction heard using List.reverseRecOn with
  | nil =>
    refine ⟨[], .new registry key now, ?_⟩
    intro j hj
    exact absurd hj.lt (Nat.not_lt_zero j)
  | append_singleton heard segment ih =>
    obtain ⟨pairs, hpaired, hignored⟩ := ih
    have hlength : (first.events config registry heard).length = heard.length := length_events heard
    dsimp only
    rw [events_append_singleton, listen_append_singleton]
    -- What holds of the earlier places does not look at the new payload.
    have hearlier : ∀ j, j < heard.length →
        ResponseAt (first.events config registry heard ++
          [(first.listen config registry heard).1.event? config registry segment]) j →
        (∀ p ∈ pairs, p.answered ≠ j) → first.Ignores config registry (heard ++ [segment]) j := by
      intro j hj hresponse hunpaired
      unfold Ignores
      rw [List.take_append_of_le_length (by omega), List.take_append_of_le_length (by omega)]
      exact hignored j ((responseAt_append (by omega)).mp hresponse) hunpaired
    rcases hpaired.inspect config segment with ⟨hnext, hlast⟩ | ⟨p, hp, hnext⟩
    · refine ⟨pairs, hnext, ?_⟩
      intro j hresponse hunpaired
      by_cases hj : j = heard.length
      · unfold Ignores
        rw [hj, List.take_left, List.take_of_length_le (by simp), listen_append_singleton]
        exact hlast (hlength ▸ hj ▸ hresponse)
      · have hlt := hresponse.lt
        simp only [List.length_append, List.length_singleton, hlength] at hlt
        exact hearlier j (by omega) hresponse hunpaired
    · refine ⟨pairs ++ [p], hnext, ?_⟩
      intro j hresponse hunpaired
      have hne : p.answered ≠ j := hunpaired p (List.mem_append_right _ (List.mem_singleton_self p))
      have hlt := hresponse.lt
      simp only [List.length_append, List.length_singleton, hlength] at hlt
      exact hearlier j (by omega) hresponse fun q hq => hunpaired q (List.mem_append_left _ hq)

end Session

end FlowWatch
