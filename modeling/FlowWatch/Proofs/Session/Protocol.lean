/-
Which protocol a session gets.

As long as no request has been seen, a session offers its payloads to all decoders, and it stops after
the window, which is one payload longer than the setting says. The first request settles the protocol:
from then on only the decoder that saw it is asked, so no other name can come up.

The invariant before the request is `Unsettled`: no request is pending, hence no response counts, hence
the counter of inspected payloads is never set back and says how many there were. It is held in 32 bits
and must not wrap, which is why the window must not be the largest one.
-/
import FlowWatch.Proofs.Session.Dialogue

set_option autoImplicit false

namespace FlowWatch

namespace Registry

/-- The event of the first decoder that accepts the payload of a segment, with the decoder's name. -/
def firstEvent? (r : Registry) (s : Segment) : Option (String × AppEvent) :=
  r.decoders.findSome? fun d => (d.accept? s.payload s.seen).map fun event => (d.name, event)

/-- The name of that decoder, if the event is a request. -/
def requester? (r : Registry) (s : Segment) : Option String :=
  match r.firstEvent? s with
  | some (name, .request _) => some name
  | _ => none

theorem event_firstAccepting (payload : List UInt8) (seen : Instant) (ds : List Decoder) :
    (firstAccepting payload seen ds).event =
      ds.findSome? fun d => (d.accept? payload seen).map fun event => (d.name, event) := by
  induction ds with
  | nil => rfl
  | cons d ds ih =>
    rw [firstAccepting, List.findSome?_cons]
    rcases d.accept? payload seen with _ | event
    · exact ih
    · rfl

theorem event_offer (r : Registry) (s : Segment) :
    (r.offer s.payload s.seen).event = r.firstEvent? s :=
  event_firstAccepting s.payload s.seen r.decoders

theorem name_of_find? {r : Registry} {name : String} {d : Decoder} (h : r.find? name = some d) :
    d.name = name := by
  unfold find? at h
  simpa using List.find?_some h

/-- A decoder that is asked by name answers under this name. -/
theorem name_offerTo {r : Registry} {name other : String} {payload : List UInt8} {seen : Instant}
    {event : AppEvent} (h : (r.offerTo name payload seen).event = some (other, event)) :
    other = name := by
  unfold offerTo at h
  rcases hfind : r.find? name with _ | d
  · rw [hfind] at h
    exact absurd h (by simp)
  · rw [hfind] at h
    obtain ⟨e, -, heq⟩ := Option.map_eq_some_iff.mp h
    exact (Prod.mk.inj heq).1.symm.trans (name_of_find? hfind)

end Registry

namespace Session

/-- The protocol that some payloads settle: that of the first request within the window. -/
def protocolOf (config : Config) (registry : Registry) (heard : List Segment) : Option String :=
  (heard.take (config.maxInspectedSegments.toNat + 1)).findSome? registry.requester?

/-- A session without a protocol that has inspected `k` payloads. -/
structure Unsettled (s : Session) (k : Nat) : Prop where
  state_eq : s.protocolState = .unknown
  pending_eq : s.pendingRequest = none
  exchanges_eq : s.exchanges = 0
  inspected_eq : s.inspected = UInt32.ofNat k

variable {config : Config} {registry : Registry} {s : Session} {k : Nat} {name : String}

theorem Unsettled.new (key : Flow) (now : Instant) : (Session.new key now).Unsettled 0 :=
  ⟨rfl, rfl, rfl, rfl⟩

/-! ## After the request -/

/-- Whoever is asked once the protocol is known answers under its name. -/
theorem name_of_audience {audience : Audience} (hs : s.protocolState.name? = some name)
    (ha : s.audience? config registry = some audience) : audience = .only name := by
  unfold audience? at ha
  rcases hstate : s.protocolState with _ | n | n
  · rw [hstate] at hs
    exact absurd hs (by simp [ProtocolState.name?])
  · rw [hstate] at hs ha
    rw [← Option.some.inj ha, ← Option.some.inj hs]
  · rw [hstate] at hs ha
    dsimp only at ha
    split_ifs at ha
    rw [← Option.some.inj ha, ← Option.some.inj hs]

theorem name?_absorb (hs : s.protocolState.name? = some name) (event : AppEvent) :
    (s.absorb name event).1.protocolState.name? = some name := by
  cases event with
  | unknown => exact hs
  | request request =>
    unfold absorb
    rcases hstate : s.protocolState with _ | n | n
    · rfl
    · rw [hstate] at hs
      exact hs
    · rw [hstate] at hs
      exact hs
  | response response =>
    unfold absorb
    rcases s.pendingRequest with _ | request
    · exact hs
    · rfl

/-- **A protocol that is known stays.** -/
theorem name?_inspect (hs : s.protocolState.name? = some name) (payload : List UInt8)
    (seen : Instant) :
    (s.inspect config registry payload seen).1.protocolState.name? = some name := by
  unfold inspect
  rcases ha : s.audience? config registry with _ | audience
  · exact hs
  · obtain rfl := name_of_audience hs ha
    dsimp only
    rcases hevent : (Audience.ask registry payload seen (.only name)).event with _ | ⟨other, event⟩
    · exact hs
    · obtain rfl := Registry.name_offerTo hevent
      exact name?_absorb (s := { s with inspected := s.inspected + 1 }) hs event

theorem name?_listen (hs : s.protocolState.name? = some name) (heard : List Segment) :
    (s.listen config registry heard).1.protocolState.name? = some name := by
  induction heard generalizing s with
  | nil => exact hs
  | cons segment heard ih => exact ih (name?_inspect hs segment.payload segment.seen)

/-! ## The request -/

/-- A request names the protocol, unless it has this name already. -/
theorem name?_absorb_request (h : s.protocolState = .unknown ∨ s.protocolState.name? = some name)
    (request : SeenRequest) :
    (s.absorb name (.request request)).1.protocolState.name? = some name := by
  rcases h with hunknown | hname
  · unfold absorb
    rw [hunknown]
    rfl
  · exact name?_absorb hname (.request request)

/-! ## Before the request -/

namespace Unsettled

/-- Within the window all decoders are asked. -/
theorem audience?_within (h : s.Unsettled k) (hk : k ≤ config.maxInspectedSegments.toNat)
    (hw : config.maxInspectedSegments < 4294967295) :
    s.audience? config registry = some .all := by
  have hbound : config.maxInspectedSegments.toNat < 4294967295 := hw
  have hcount : (UInt32.ofNat k).toNat = k := UInt32.toNat_ofNat_of_lt' (by
    show k < 4294967296
    omega)
  unfold audience?
  rw [h.state_eq, h.inspected_eq]
  apply if_pos
  show (UInt32.ofNat k).toNat ≤ config.maxInspectedSegments.toNat
  omega

/-- One more payload within the window: a request settles the protocol, and all else is only counted. -/
theorem inspect (registry : Registry) (h : s.Unsettled k) (hk : k ≤ config.maxInspectedSegments.toNat)
    (hw : config.maxInspectedSegments < 4294967295) (segment : Segment) :
    match registry.requester? segment with
    | some name => (s.inspect config registry segment.payload segment.seen).1.protocolState.name? =
        some name
    | none => (s.inspect config registry segment.payload segment.seen).1.Unsettled (k + 1) := by
  have haudience : s.audience? config registry = some .all := h.audience?_within hk hw
  have hnext : s.inspected + 1 = UInt32.ofNat (k + 1) := by
    rw [h.inspected_eq]
    exact (UInt32.ofNat_add k 1).symm
  have hevent : (Audience.ask registry segment.payload segment.seen .all).event =
      registry.firstEvent? segment := registry.event_offer segment
  have hcounted : { s with inspected := s.inspected + 1 }.Unsettled (k + 1) :=
    ⟨h.state_eq, h.pending_eq, h.exchanges_eq, hnext⟩
  unfold Session.inspect Registry.requester?
  rw [haudience]
  dsimp only
  rw [hevent]
  rcases registry.firstEvent? segment with _ | ⟨name, _ | request | response⟩
  · exact hcounted
  · exact hcounted
  · exact name?_absorb_request (.inl hcounted.state_eq) request
  · -- A response without a request changes nothing.
    unfold absorb
    dsimp only
    rw [h.pending_eq] at hcounted ⊢
    exact hcounted

/-- Beyond the window nobody is asked any more. -/
theorem inspect_past (h : s.Unsettled (config.maxInspectedSegments.toNat + 1))
    (hw : config.maxInspectedSegments < 4294967295) (payload : List UInt8) (seen : Instant) :
    s.inspect config registry payload seen = (s, []) := by
  have hbound : config.maxInspectedSegments.toNat < 4294967295 := hw
  have hcount : (UInt32.ofNat (config.maxInspectedSegments.toNat + 1)).toNat =
      config.maxInspectedSegments.toNat + 1 := UInt32.toNat_ofNat_of_lt' (by
    show config.maxInspectedSegments.toNat + 1 < 4294967296
    omega)
  have haudience : s.audience? config registry = none := by
    unfold audience?
    rw [h.state_eq, h.inspected_eq]
    apply if_neg
    show ¬(UInt32.ofNat (config.maxInspectedSegments.toNat + 1)).toNat ≤
      config.maxInspectedSegments.toNat
    omega
  unfold Session.inspect
  rw [haudience]

theorem listen_past (h : s.Unsettled (config.maxInspectedSegments.toNat + 1))
    (hw : config.maxInspectedSegments < 4294967295) (heard : List Segment) :
    s.listen config registry heard = (s, []) := by
  induction heard with
  | nil => rfl
  | cons segment heard ih =>
    rw [listen, h.inspect_past hw]
    dsimp only
    rw [ih]
    rfl

/-- What is left of the window decides. -/
theorem listen (registry : Registry) (h : s.Unsettled k) (hk : k ≤ config.maxInspectedSegments.toNat + 1)
    (hw : config.maxInspectedSegments < 4294967295) (heard : List Segment) :
    let protocol :=
      (heard.take (config.maxInspectedSegments.toNat + 1 - k)).findSome? registry.requester?
    (s.listen config registry heard).1.protocolState.name? = protocol ∧
      (protocol = none → (s.listen config registry heard).1.exchanges = 0) := by
  induction heard generalizing s k with
  | nil =>
    dsimp only
    rw [List.take_nil]
    show s.protocolState.name? = none ∧ (_ → s.exchanges = 0)
    rw [h.state_eq]
    exact ⟨rfl, fun _ => h.exchanges_eq⟩
  | cons segment heard ih =>
    by_cases hin : k ≤ config.maxInspectedSegments.toNat
    · have hwindow : config.maxInspectedSegments.toNat + 1 - k =
          config.maxInspectedSegments.toNat + 1 - (k + 1) + 1 := by omega
      have hstep := h.inspect registry hin hw segment
      dsimp only at ih ⊢
      rw [hwindow, List.take_succ_cons, List.findSome?_cons]
      rcases hrequest : registry.requester? segment with _ | name
      · rw [hrequest] at hstep
        exact ih hstep (by omega)
      · rw [hrequest] at hstep
        refine ⟨name?_listen hstep heard, ?_⟩
        intro hnone
        exact absurd hnone (by simp)
    · obtain rfl : k = config.maxInspectedSegments.toNat + 1 := by omega
      dsimp only
      rw [h.listen_past hw, Nat.sub_self, List.take_zero]
      show s.protocolState.name? = none ∧ (_ → s.exchanges = 0)
      rw [h.state_eq]
      exact ⟨rfl, fun _ => h.exchanges_eq⟩

end Unsettled

/-- **The first request within the window names the protocol**, and without a protocol there is no
exchange. -/
theorem protocol_listen (registry : Registry) (key : Flow) (now : Instant)
    (hw : config.maxInspectedSegments < 4294967295) (heard : List Segment) :
    let last := ((Session.new key now).listen config registry heard).1
    last.protocolState.name? = protocolOf config registry heard ∧
      (last.exchanges ≠ 0 → (protocolOf config registry heard).isSome) := by
  obtain ⟨hname, hnone⟩ := (Unsettled.new key now).listen registry
    (Nat.zero_le _) hw heard
  refine ⟨hname, ?_⟩
  intro hexchanges
  rcases hprotocol : protocolOf config registry heard with _ | name
  · exact absurd (hnone hprotocol) hexchanges
  · rfl

end Session

end FlowWatch
