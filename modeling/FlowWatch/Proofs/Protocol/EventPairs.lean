/-
Which requests and responses belong together.

To each payload there is at most one event, and the exchanges of a conversation are determined by the
sequence of its events alone. `Pairing` says how, without following anybody who listens: the pairs do not
overlap, the request of a pair is the latest one before the response, and no response is left out for
which a request was waiting. This leaves no choice, which is `Pairing.unique`.

Events come one at a time, so a pairing is built by adding events at the end, and a pair that was made is
never touched again.
-/
import FlowWatch.Protocol.Event

set_option autoImplicit false

namespace FlowWatch

variable {events : List (Option AppEvent)} {event : Option AppEvent}

/-- The event at a place is a request. -/
def RequestAt (events : List (Option AppEvent)) (i : Nat) : Prop :=
  ∃ request, events[i]? = some (some (.request request))

/-- The event at a place is a response. -/
def ResponseAt (events : List (Option AppEvent)) (i : Nat) : Prop :=
  ∃ response, events[i]? = some (some (.response response))

/-- A request and a response, with their places. -/
structure EventPair where
  asked : Nat
  request : SeenRequest
  answered : Nat
  response : SeenResponse

/-- The exchange of a pair. -/
def EventPair.exchange (p : EventPair) : Exchange := .ofPair p.request p.response

/-- The pairs of some events, in the order of the responses. -/
structure Pairing (events : List (Option AppEvent)) (pairs : List EventPair) : Prop where
  request_at : ∀ p ∈ pairs, events[p.asked]? = some (some (.request p.request))
  response_at : ∀ p ∈ pairs, events[p.answered]? = some (some (.response p.response))
  /-- Of the requests before a response the latest one counts. -/
  latest : ∀ p ∈ pairs, p.asked < p.answered ∧
    ∀ k, p.asked < k → k < p.answered → ¬RequestAt events k
  /-- No request and no response is used twice. -/
  apart : pairs.Pairwise fun p q => p.answered < q.asked
  /-- A response is paired if there is a request before it and no paired response in between. -/
  complete : ∀ i j, RequestAt events i → ResponseAt events j → i < j →
    (∀ p ∈ pairs, i < p.answered → j ≤ p.answered) → ∃ p ∈ pairs, p.answered = j

theorem RequestAt.lt {i : Nat} (h : RequestAt events i) : i < events.length := by
  obtain ⟨request, hrequest⟩ := h
  exact (List.getElem?_eq_some_iff.mp hrequest).1

theorem ResponseAt.lt {i : Nat} (h : ResponseAt events i) : i < events.length := by
  obtain ⟨response, hresponse⟩ := h
  exact (List.getElem?_eq_some_iff.mp hresponse).1

/-- One more event changes nothing at the places before it. -/
theorem requestAt_append {i : Nat} (hi : i < events.length) :
    RequestAt (events ++ [event]) i ↔ RequestAt events i := by
  unfold RequestAt
  rw [List.getElem?_append_left hi]

theorem responseAt_append {i : Nat} (hi : i < events.length) :
    ResponseAt (events ++ [event]) i ↔ ResponseAt events i := by
  unfold ResponseAt
  rw [List.getElem?_append_left hi]

theorem requestAt_last : RequestAt (events ++ [event]) events.length ↔
    ∃ request, event = some (.request request) := by
  simp [RequestAt]

theorem responseAt_last : ResponseAt (events ++ [event]) events.length ↔
    ∃ response, event = some (.response response) := by
  simp [ResponseAt]

namespace Pairing

variable {pairs : List EventPair}

theorem nil : Pairing [] [] := by
  refine ⟨?_, ?_, ?_, List.Pairwise.nil, ?_⟩
  · simp
  · simp
  · simp
  · intro i j hi
    exact absurd hi.lt (Nat.not_lt_zero i)

theorem answered_lt (h : Pairing events pairs) {p : EventPair} (hp : p ∈ pairs) :
    p.answered < events.length :=
  ResponseAt.lt ⟨p.response, h.response_at p hp⟩

theorem asked_lt (h : Pairing events pairs) {p : EventPair} (hp : p ∈ pairs) :
    p.asked < events.length :=
  Nat.lt_trans (h.latest p hp).1 (h.answered_lt hp)

/-- Of what is asked of a pair, all but the order stays true with one more event. -/
theorem earlier (h : Pairing events pairs) (event : Option AppEvent) {p : EventPair}
    (hp : p ∈ pairs) :
    (events ++ [event])[p.asked]? = some (some (.request p.request)) ∧
      (events ++ [event])[p.answered]? = some (some (.response p.response)) ∧
      p.asked < p.answered ∧
        ∀ k, p.asked < k → k < p.answered → ¬RequestAt (events ++ [event]) k := by
  have hanswered := h.answered_lt hp
  refine ⟨?_, ?_, (h.latest p hp).1, ?_⟩
  · rw [List.getElem?_append_left (h.asked_lt hp)]
    exact h.request_at p hp
  · rw [List.getElem?_append_left hanswered]
    exact h.response_at p hp
  · intro k hasked hk
    rw [requestAt_append (by omega)]
    exact (h.latest p hp).2 k hasked hk

/-- An event is not paired if it is no response, or a response for which no request is waiting. -/
theorem append_unpaired (h : Pairing events pairs)
    (hevent : ResponseAt (events ++ [event]) events.length →
      ∀ i, RequestAt events i → ∃ p ∈ pairs, i < p.answered) :
    Pairing (events ++ [event]) pairs := by
  refine ⟨fun p hp => (h.earlier event hp).1, fun p hp => (h.earlier event hp).2.1,
    fun p hp => (h.earlier event hp).2.2, h.apart, ?_⟩
  intro i j hi hj hij hwaits
  have hlt : j < events.length + 1 := by
    simpa using hj.lt
  rw [requestAt_append (by omega)] at hi
  by_cases hlast : j = events.length
  · -- The request at `i` would be waiting for the new response.
    subst hlast
    obtain ⟨p, hp, hip⟩ := hevent hj i hi
    have hpast := hwaits p hp hip
    have hanswered := h.answered_lt hp
    omega
  · rw [responseAt_append (by omega)] at hj
    exact h.complete i j hi hj hij hwaits

/-- A response is paired with the request that is waiting for it. -/
theorem append_paired (h : Pairing events pairs) {i : Nat} {request : SeenRequest}
    (hrequest : events[i]? = some (some (.request request)))
    (hlatest : ∀ k, i < k → ¬RequestAt events k) (hfree : ∀ p ∈ pairs, p.answered < i)
    (response : SeenResponse) :
    Pairing (events ++ [some (.response response)])
      (pairs ++ [⟨i, request, events.length, response⟩]) := by
  have hi : i < events.length := RequestAt.lt ⟨request, hrequest⟩
  refine ⟨?_, ?_, ?_, ?_, ?_⟩
  · intro p hp
    rcases List.mem_append.mp hp with hold | hnew
    · exact (h.earlier _ hold).1
    · rw [List.mem_singleton.mp hnew]
      show (events ++ _)[i]? = _
      rw [List.getElem?_append_left hi]
      exact hrequest
  · intro p hp
    rcases List.mem_append.mp hp with hold | hnew
    · exact (h.earlier _ hold).2.1
    · rw [List.mem_singleton.mp hnew]
      exact List.getElem?_concat_length
  · intro p hp
    rcases List.mem_append.mp hp with hold | hnew
    · exact (h.earlier _ hold).2.2
    · rw [List.mem_singleton.mp hnew]
      refine ⟨hi, ?_⟩
      intro k hik hk
      rw [requestAt_append hk]
      exact hlatest k hik
  · -- The request was free, so all pairs end before it.
    refine List.pairwise_append.mpr ⟨h.apart, List.pairwise_singleton _ _, ?_⟩
    intro p hp q hq
    rw [List.mem_singleton.mp hq]
    exact hfree p hp
  · intro j k hj hk hjk hwaits
    have hlt : k < events.length + 1 := by
      simpa using hk.lt
    by_cases hlast : k = events.length
    · exact ⟨_, List.mem_append_right _ (List.mem_singleton_self _), hlast.symm⟩
    · rw [requestAt_append (by omega)] at hj
      rw [responseAt_append (by omega)] at hk
      obtain ⟨p, hp, hanswered⟩ := h.complete j k hj hk hjk
        fun p hp => hwaits p (List.mem_append_left _ hp)
      exact ⟨p, List.mem_append_left _ hp, hanswered⟩

/-! ### The events determine the pairs -/

variable {others : List EventPair} {p q : EventPair}

/-- The pairs do not cross: a response between those of a pair belongs to no other pair. -/
theorem answered_le (h : Pairing events pairs) (hp : p ∈ pairs) (hq : q ∈ pairs)
    (hasked : p.asked < q.answered) : p.answered ≤ q.answered := by
  have hlatest := (h.latest q hq).1
  obtain ⟨m, hm, rfl⟩ := List.getElem_of_mem hp
  obtain ⟨n, hn, rfl⟩ := List.getElem_of_mem hq
  have hapart := List.pairwise_iff_getElem.mp h.apart
  rcases Nat.lt_trichotomy m n with hlt | rfl | hgt
  · have hbefore := hapart m n hm hn hlt
    omega
  · exact Nat.le_refl _
  · have hafter := hapart n m hn hm hgt
    omega

/-- Pairs with the same response are the same. -/
theorem eq_of_answered (h : Pairing events pairs) (h' : Pairing events others) (hp : p ∈ pairs)
    (hq : q ∈ others) (hanswered : q.answered = p.answered) : q = p := by
  obtain ⟨hpq, hplatest⟩ := h.latest p hp
  obtain ⟨hqp, hqlatest⟩ := h'.latest q hq
  have hprequest := h.request_at p hp
  have hqrequest := h'.request_at q hq
  -- Of two different requests the earlier one would not be the latest before the response.
  have hasked : q.asked = p.asked := by
    rcases Nat.lt_trichotomy q.asked p.asked with hlt | heq | hgt
    · exact absurd ⟨_, hprequest⟩ (hqlatest p.asked hlt (by omega))
    · exact heq
    · exact absurd ⟨_, hqrequest⟩ (hplatest q.asked hgt (by omega))
  have hpresponse := h.response_at p hp
  have hqresponse := h'.response_at q hq
  rw [hasked, hprequest] at hqrequest
  rw [hanswered, hpresponse] at hqresponse
  cases p
  cases q
  simp_all

/-- Where two pairings agree on the earlier responses, the same requests are waiting for the next. -/
theorem mem_of_agree (h : Pairing events pairs) (h' : Pairing events others) (hp : p ∈ pairs)
    (hagree : ∀ q ∈ others, q.answered < p.answered → q ∈ pairs) : p ∈ others := by
  have hwaits : ∀ q ∈ others, p.asked < q.answered → p.answered ≤ q.answered := by
    intro q hq hasked
    rcases Nat.lt_or_ge q.answered p.answered with hearly | hlate
    · exact h.answered_le hp (hagree q hq hearly) hasked
    · exact hlate
  obtain ⟨q, hq, hanswered⟩ := h'.complete p.asked p.answered ⟨_, h.request_at p hp⟩
    ⟨_, h.response_at p hp⟩ (h.latest p hp).1 hwaits
  rw [← h.eq_of_answered h' hp hq hanswered]
  exact hq

/-- **The events determine their pairs.** -/
theorem unique (h : Pairing events pairs) (h' : Pairing events others) : pairs = others := by
  -- The induction is on the place of the response.
  have hmem : ∀ n, (∀ p ∈ pairs, p.answered = n → p ∈ others) ∧
      ∀ p ∈ others, p.answered = n → p ∈ pairs := by
    intro n
    induction n using Nat.strongRecOn with
    | ind n ih =>
      constructor
      · rintro p hp rfl
        exact h.mem_of_agree h' hp fun q hq hlt => (ih q.answered hlt).2 q hq rfl
      · rintro p hp rfl
        exact h'.mem_of_agree h hp fun q hq hlt => (ih q.answered hlt).1 q hq rfl
  have hsorted : ∀ {ps : List EventPair}, Pairing events ps →
      ps.Pairwise fun p q => p.answered < q.answered := by
    intro ps hps
    refine hps.apart.imp_of_mem ?_
    intro a b _ hb hab
    exact Nat.lt_trans hab (hps.latest b hb).1
  -- Both lists have the same pairs, each once, in the order of the responses.
  refine List.Perm.eq_of_pairwise ?_ (hsorted h) (hsorted h') ?_
  · intro a b _ _ hab hba
    omega
  · refine (List.perm_ext_iff_of_nodup ?_ ?_).mpr ?_
    · exact (hsorted h).imp fun hlt heq => absurd (heq ▸ hlt) (Nat.lt_irrefl _)
    · exact (hsorted h').imp fun hlt heq => absurd (heq ▸ hlt) (Nat.lt_irrefl _)
    · intro p
      exact ⟨fun hp => (hmem p.answered).1 p hp rfl, fun hp => (hmem p.answered).2 p hp rfl⟩

end Pairing

end FlowWatch
