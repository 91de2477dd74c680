/-
Round-trip samples and the sends behind them.

A sample says that a segment of the server answers a segment of the client. What is recorded is only
the time between the two, so the pair has to be found again: `Backing` assigns to each place where a
sample was recorded the place of the send it belongs to, and no send to two of them.

The cache is seen as a recency list. The invariant that carries the induction is about its entries:
each one stands for the last send so far that expects this acknowledgment, and no sample has used
that send yet (`Stands`). A push brings the newest send in, an answer takes a send out for good, and all
else only drops entries.
-/
import FlowWatch.Proofs.SeqCache.Answers
import FlowWatch.Proofs.SeqCache.Refinement
import FlowWatch.Proofs.Session.Traffic
import Mathlib.Data.Finset.Card
import Mathlib.Order.Interval.Finset.Nat

set_option autoImplicit false

namespace FlowWatch

theorem RoundTrips.add_of_neg (s : RoundTrips) {rtt : Span} (h : rtt < 0) : s.add rtt = s :=
  if_pos h

theorem RoundTrips.count_add (s : RoundTrips) {rtt : Span} (h : 0 ≤ rtt) :
    (s.add rtt).count = s.count + 1 := by
  unfold add
  rw [if_neg (Int.not_lt.mpr h)]
  rcases s.first with _ | first <;> rfl

theorem RoundTrips.samples_summary {s : RoundTrips} {figures : RttFigures}
    (h : s.summary = some figures) : figures.samples = s.count := by
  obtain ⟨first, -, h⟩ := Option.bind_eq_some_iff.mp h
  obtain ⟨mean, -, h⟩ := Option.bind_eq_some_iff.mp h
  rw [← Option.some.inj h]

namespace Lifecycle

/-- The lifecycle after the first `k` of its inputs. -/
def after (config : Config) (registry : Registry) (l : Lifecycle) (inputs : List Input) (k : Nat) :
    Lifecycle :=
  (l.replay config registry (inputs.take k)).1

/-- The segment of a direction at place `k` of the inputs. -/
def segmentAt? (l : Lifecycle) (d : Direction) (inputs : List Input) (k : Nat) : Option Segment :=
  inputs[k]?.bind (Input.segment? l.session d)

/-- The send at place `c` is the last one before place `n` that expects its acknowledgment. -/
structure LastSend (l : Lifecycle) (inputs : List Input) (n c : Nat) (send : Segment) : Prop where
  before : c < n
  sent : l.segmentAt? .clientToServer inputs c = some send
  last : ∀ k later, c < k → k < n → l.segmentAt? .clientToServer inputs k = some later →
    later.coveringAck ≠ send.coveringAck

/-- An acknowledgment is at most one position away from the one a send expects. -/
def Acknowledges (ack expected : Sequence) : Prop :=
  expected = ack.retreat 1 ∨ expected = ack ∨ expected = ack.advance 1

/-- **The sends behind the samples.** `backing r` is the place of the send that the sample at place
`r` belongs to, if a sample was recorded there. -/
structure Backing (config : Config) (registry : Registry) (l : Lifecycle) (inputs : List Input)
    (backing : Nat → Option Nat) : Prop where
  /-- Elsewhere nothing is recorded. -/
  unbacked : ∀ r, backing r = none →
    (l.after config registry inputs (r + 1)).session.rtt =
      (l.after config registry inputs r).session.rtt
  /-- A sample is the time from the last send that expects this acknowledgment to its answer, and
  never negative. -/
  backed : ∀ r c, backing r = some c → ∃ send answer,
    l.LastSend inputs r c send ∧ l.segmentAt? .serverToClient inputs r = some answer ∧
      Acknowledges answer.ack send.coveringAck ∧ 0 ≤ answer.seen - send.seen ∧
      (l.after config registry inputs (r + 1)).session.rtt =
        (l.after config registry inputs r).session.rtt.add (answer.seen - send.seen)
  /-- No send is answered twice. -/
  injective : ∀ r r' c, backing r = some c → backing r' = some c → r = r'

/-- An entry of the cache after all inputs stands for a send: the last one that expects this
acknowledgment, which has no sample yet. -/
def Stands (l : Lifecycle) (inputs : List Input) (backing : Nat → Option Nat)
    (e : StreamPoint × Instant) : Prop :=
  e.1.flow = l.session.key ∧ ∃ c send, l.LastSend inputs inputs.length c send ∧
    send.coveringAck = e.1.seq ∧ send.seen = e.2 ∧ ∀ r, backing r ≠ some c

variable {config : Config} {registry : Registry} {l : Lifecycle} {inputs : List Input}
  {input : Input} {m m' : RecencyList} {backing : Nat → Option Nat}

/-! ## Inputs, one more at a time -/

theorem replay_append (l : Lifecycle) (xs ys : List Input) :
    (l.replay config registry (xs ++ ys)).1 =
      ((l.replay config registry xs).1.replay config registry ys).1 := by
  induction xs generalizing l with
  | nil => rfl
  | cons x xs ih => exact ih _

theorem after_of_le {k : Nat} (hk : inputs.length ≤ k) :
    l.after config registry inputs k = (l.replay config registry inputs).1 := by
  unfold after
  rw [List.take_of_length_le hk]

/-- Past the inputs nothing changes any more. -/
theorem after_past {k : Nat} (hk : inputs.length ≤ k) :
    l.after config registry inputs (k + 1) = l.after config registry inputs k := by
  rw [after_of_le hk, after_of_le (Nat.le_succ_of_le hk)]

theorem after_append {k : Nat} (hk : k ≤ inputs.length) (later : List Input) :
    l.after config registry (inputs ++ later) k = l.after config registry inputs k := by
  unfold after
  rw [List.take_append_of_le_length hk]

/-- The last turn. -/
theorem after_append_last :
    l.after config registry (inputs ++ [input]) (inputs.length + 1) =
      ((l.replay config registry inputs).1.turn config registry {} input).next := by
  rw [after_of_le (by rw [List.length_append, List.length_singleton]), replay_append]
  rfl

theorem segmentAt?_append {k : Nat} (hk : k < inputs.length) (d : Direction)
    (later : List Input) : l.segmentAt? d (inputs ++ later) k = l.segmentAt? d inputs k := by
  unfold segmentAt?
  rw [List.getElem?_append_left hk]

theorem segmentAt?_append_last (d : Direction) :
    l.segmentAt? d (inputs ++ [input]) inputs.length = input.segment? l.session d := by
  unfold segmentAt?
  rw [List.getElem?_concat_length]
  rfl

theorem lt_of_segmentAt? {d : Direction} {k : Nat} {s : Segment}
    (h : l.segmentAt? d inputs k = some s) : k < inputs.length := by
  obtain ⟨input, hi, -⟩ := Option.bind_eq_some_iff.mp h
  exact (List.getElem?_eq_some_iff.mp hi).1

namespace LastSend

variable {n c : Nat} {send : Segment}

theorem append (h : l.LastSend inputs n c send) (hn : n ≤ inputs.length) (later : List Input) :
    l.LastSend (inputs ++ later) n c send where
  before := h.before
  sent := by
    rw [segmentAt?_append (Nat.lt_of_lt_of_le h.before hn)]
    exact h.sent
  last := by
    intro k s hck hkn hs
    rw [segmentAt?_append (Nat.lt_of_lt_of_le hkn hn)] at hs
    exact h.last k s hck hkn hs

/-- A send stays the last one until another send expects the same acknowledgment. -/
theorem append_last (h : l.LastSend inputs inputs.length c send)
    (hne : ∀ s, input.segment? l.session .clientToServer = some s →
      s.coveringAck ≠ send.coveringAck) :
    l.LastSend (inputs ++ [input]) (inputs.length + 1) c send where
  before := Nat.lt_succ_of_lt h.before
  sent := (h.append (Nat.le_refl _) [input]).sent
  last := by
    intro k s hck hkn hs
    rcases Nat.lt_succ_iff_lt_or_eq.mp hkn with hlt | rfl
    · exact (h.append (Nat.le_refl _) [input]).last k s hck hlt hs
    · rw [segmentAt?_append_last] at hs
      exact hne s hs

theorem new (h : input.segment? l.session .clientToServer = some send) :
    l.LastSend (inputs ++ [input]) (inputs.length + 1) inputs.length send where
  before := Nat.lt_succ_self _
  sent := segmentAt?_append_last .clientToServer |>.trans h
  last := by
    intro k s hck hkn
    omega

end LastSend

/-! ## What a turn does to the cache -/

/-- What a turn makes of the entries `m` of the cache and of the statistics. -/
inductive Sampling (l : Lifecycle) (m m' : RecencyList) : Input → RoundTrips → Prop where
  /-- Nothing is sent and nothing is answered. -/
  | quiet {input : Input} (hnone : input.segment? l.session .clientToServer = none)
    (hkept : ∀ e ∈ m'.entries, e ∈ m.entries) : Sampling l m m' input l.session.rtt
  /-- A send comes in, and replaces an earlier one that expects the same acknowledgment. -/
  | sent {s : Segment} (hroute : (Input.segment s).segment? l.session .clientToServer = some s)
    (hkept : ∀ e ∈ m'.entries, e = (⟨l.session.key, s.coveringAck⟩, s.seen) ∨
      (e ∈ m.entries ∧ e.1 ≠ ⟨l.session.key, s.coveringAck⟩)) :
    Sampling l m m' (.segment s) l.session.rtt
  /-- An entry answers and goes. -/
  | answered {s : Segment} {e : StreamPoint × Instant}
    (hroute : (Input.segment s).segment? l.session .serverToClient = some s)
    (hnot : (Input.segment s).segment? l.session .clientToServer = none)
    (he : e ∈ m.entries) (hnear : Acknowledges s.ack e.1.seq)
    (hkept : ∀ a ∈ m'.entries, a ∈ m.entries ∧ a ≠ e) :
    Sampling l m m' (.segment s) (l.session.rtt.add (s.seen - e.2))

/-- The client's side writes. -/
theorem sampling_send (hl : l.session.TwoSided) (hm : l.cache.Reflects m)
    (hopen : m.closed = false) {s : Segment}
    (hroute : l.session.route s.flow = some .clientToServer) :
    ∃ m', (l.turn config registry {} (.segment s)).next.cache.Reflects m' ∧
      Sampling l m m' (.segment s)
        (l.turn config registry {} (.segment s)).next.session.rtt := by
  obtain ⟨-, hrtt, hcache, -⟩ :=
    Session.receiveOn_of_twoSided config registry hl l.cache {} .clientToServer s
  rw [turn_of_routed config registry {} hroute]
  have hsample : (l.session.side .clientToServer).sample s l.cache l.session.rtt =
      ((l.cache.push ⟨l.session.key, s.coveringAck⟩ s.seen).1, l.session.rtt, true) := by
    unfold Side.sample
    rw [hl.direction_eq .clientToServer]
    dsimp only
    rw [show (l.session.side .clientToServer).key = l.session.key from hl.forward_key]
    have hanswer : (l.cache.push ⟨l.session.key, s.coveringAck⟩ s.seen).2 =
        (m.push ⟨l.session.key, s.coveringAck⟩ s.seen).2 := (hm.push _ _).2
    unfold RecencyList.push at hanswer
    rw [hopen, if_neg Bool.false_ne_true] at hanswer
    revert hanswer
    rcases l.cache.push ⟨l.session.key, s.coveringAck⟩ s.seen with ⟨c, _ | _⟩
    · exact fun h => absurd h (by simp)
    · exact fun _ => rfl
  dsimp only at hrtt hcache ⊢
  rw [hsample] at hrtt hcache
  rw [hrtt, hcache]
  refine ⟨_, (hm.push _ _).1, .sent ?_ fun e he => RecencyList.mem_push hopen he⟩
  unfold Input.segment?
  exact if_pos hroute

/-- The server's side reads. -/
theorem sampling_answer (hl : l.session.TwoSided) (hm : l.cache.Reflects m)
    (hopen : m.closed = false) {s : Segment}
    (hroute : l.session.route s.flow = some .serverToClient) :
    ∃ m', (l.turn config registry {} (.segment s)).next.cache.Reflects m' ∧
      Sampling l m m' (.segment s)
        (l.turn config registry {} (.segment s)).next.session.rtt := by
  have hserver : (Input.segment s).segment? l.session .serverToClient = some s := by
    unfold Input.segment?
    exact if_pos hroute
  have hclient : (Input.segment s).segment? l.session .clientToServer = none := by
    unfold Input.segment?
    exact if_neg (by rw [hroute]; simp)
  obtain ⟨-, hrtt, hcache, -⟩ :=
    Session.receiveOn_of_twoSided config registry hl l.cache {} .serverToClient s
  obtain ⟨hpull, hanswer⟩ := hm.pull ⟨l.session.key, s.ack⟩
  have hkey : (l.session.side .serverToClient).key.reverse = l.session.key :=
    congrArg Flow.reverse hl.backward_key
  rw [turn_of_routed config registry {} hroute]
  dsimp only at hrtt hcache ⊢
  rw [hrtt, hcache]
  unfold Side.sample
  rw [hl.direction_eq .serverToClient, hkey]
  dsimp only
  rcases hp : l.cache.pull ⟨l.session.key, s.ack⟩ with ⟨c, _ | _ | sent⟩
  · rw [hp] at hpull
    exact ⟨_, hpull, .quiet hclient fun e he => RecencyList.mem_of_mem_pull he⟩
  · rw [hp] at hpull
    exact ⟨_, hpull, .quiet hclient fun e he => RecencyList.mem_of_mem_pull he⟩
  · rw [hp] at hpull hanswer
    obtain ⟨e, he, rfl, -, hnear, hgone⟩ :=
      RecencyList.pull_answer hm.keys_nodup hopen hanswer.symm
    refine ⟨_, hpull, .answered hserver hclient he hnear fun a ha => ?_⟩
    exact ⟨RecencyList.mem_of_mem_pull ha, fun h => hgone (h ▸ ha)⟩

/-- Every turn is such a sampling. -/
theorem sampling_turn (hl : l.session.TwoSided) (hm : l.cache.Reflects m)
    (hopen : m.closed = false) (input : Input) :
    ∃ m', (l.turn config registry {} input).next.cache.Reflects m' ∧ m'.closed = false ∧
      Sampling l m m' input (l.turn config registry {} input).next.session.rtt := by
  suffices h : ∃ m', (l.turn config registry {} input).next.cache.Reflects m' ∧
      Sampling l m m' input (l.turn config registry {} input).next.session.rtt by
    obtain ⟨m', hreflects, hsampling⟩ := h
    refine ⟨m', hreflects, ?_, hsampling⟩
    rw [← hreflects.closed_eq, (settings_turn config registry {} l input).2, hm.closed_eq, hopen]
  cases input with
  | segment s =>
    rcases hroute : l.session.route s.flow with _ | _ | _
    · rw [turn_of_unrouted config registry {} hroute]
      refine ⟨m, hm, .quiet ?_ fun e he => he⟩
      unfold Input.segment?
      exact if_neg (by rw [hroute]; simp)
    · exact sampling_send hl hm hopen hroute
    · exact sampling_answer hl hm hopen hroute
  | tick now =>
    unfold turn Session.tick
    rcases now with _ | now <;> dsimp only
    · exact ⟨m, hm, .quiet rfl fun e he => he⟩
    · exact ⟨_, (hm.purge now).1, .quiet rfl fun e he => RecencyList.mem_of_mem_purge he⟩

/-! ## The induction -/

/-- What is known after some inputs: the sends behind the samples so far, and the sends that can
still be answered. -/
structure Traced (config : Config) (registry : Registry) (l : Lifecycle) (inputs : List Input)
    (backing : Nat → Option Nat) : Prop extends Backing config registry l inputs backing where
  live : ∃ m, (l.replay config registry inputs).1.cache.Reflects m ∧ m.closed = false ∧
    ∀ e ∈ m.entries, l.Stands inputs backing e

namespace Backing

theorem place_lt (h : l.Backing config registry inputs backing) {r c : Nat}
    (hr : backing r = some c) : r < inputs.length := by
  obtain ⟨send, answer, -, hanswer, -⟩ := h.backed r c hr
  exact lt_of_segmentAt? hanswer

/-- Earlier samples stay as they are. -/
theorem append_of_lt (h : l.Backing config registry inputs backing) {r c : Nat}
    (hr : backing r = some c) :
    ∃ send answer, l.LastSend (inputs ++ [input]) r c send ∧
      l.segmentAt? .serverToClient (inputs ++ [input]) r = some answer ∧
      Acknowledges answer.ack send.coveringAck ∧ 0 ≤ answer.seen - send.seen ∧
      (l.after config registry (inputs ++ [input]) (r + 1)).session.rtt =
        (l.after config registry (inputs ++ [input]) r).session.rtt.add
          (answer.seen - send.seen) := by
  have hlt := h.place_lt hr
  obtain ⟨send, answer, hsend, hanswer, hack, hpos, hrtt⟩ := h.backed r c hr
  refine ⟨send, answer, hsend.append (Nat.le_of_lt hlt) [input], ?_, hack, hpos, ?_⟩
  · rw [segmentAt?_append hlt]
    exact hanswer
  · rw [after_append hlt, after_append (Nat.le_of_lt hlt)]
    exact hrtt

/-- An input that records nothing leaves the assignment as it is. -/
theorem append_unbacked (h : l.Backing config registry inputs backing)
    (hrtt : ((l.replay config registry inputs).1.turn config registry {} input).next.session.rtt =
      (l.replay config registry inputs).1.session.rtt) :
    l.Backing config registry (inputs ++ [input]) backing where
  unbacked := by
    intro r hr
    rcases Nat.lt_trichotomy r inputs.length with hlt | rfl | hgt
    · rw [after_append hlt, after_append (Nat.le_of_lt hlt)]
      exact h.unbacked r hr
    · rw [after_append_last, after_append (Nat.le_refl _), after_of_le (Nat.le_refl _)]
      exact hrtt
    · have hlen : (inputs ++ [input]).length ≤ r := by
        rw [List.length_append, List.length_singleton]
        exact hgt
      rw [after_past hlen]
  backed := fun _ _ hr => h.append_of_lt hr
  injective := h.injective

/-- An input that records a sample for a send without one. -/
theorem append_backed (h : l.Backing config registry inputs backing) {c : Nat}
    {send answer : Segment} (hsend : l.LastSend inputs inputs.length c send)
    (hunused : ∀ r, backing r ≠ some c)
    (hanswer : input.segment? l.session .serverToClient = some answer)
    (hack : Acknowledges answer.ack send.coveringAck) (hpos : 0 ≤ answer.seen - send.seen)
    (hrtt : ((l.replay config registry inputs).1.turn config registry {} input).next.session.rtt =
      (l.replay config registry inputs).1.session.rtt.add (answer.seen - send.seen)) :
    l.Backing config registry (inputs ++ [input])
      (Function.update backing inputs.length (some c)) where
  unbacked := by
    intro r hr
    have hne : r ≠ inputs.length := by
      rintro rfl
      rw [Function.update_self] at hr
      exact absurd hr (by simp)
    rw [Function.update_of_ne hne] at hr
    rcases Nat.lt_or_gt_of_ne hne with hlt | hgt
    · rw [after_append hlt, after_append (Nat.le_of_lt hlt)]
      exact h.unbacked r hr
    · have hlen : (inputs ++ [input]).length ≤ r := by
        rw [List.length_append, List.length_singleton]
        exact hgt
      rw [after_past hlen]
  backed := by
    intro r k hr
    by_cases hne : r = inputs.length
    · subst hne
      rw [Function.update_self] at hr
      obtain rfl := Option.some.inj hr
      refine ⟨send, answer, hsend.append (Nat.le_refl _) [input], ?_, hack, hpos, ?_⟩
      · rw [segmentAt?_append_last]
        exact hanswer
      · rw [after_append_last, after_append (Nat.le_refl _), after_of_le (Nat.le_refl _)]
        exact hrtt
    · rw [Function.update_of_ne hne] at hr
      exact h.append_of_lt hr
  injective := by
    intro r r' k hr hr'
    by_cases hne : r = inputs.length <;> by_cases hne' : r' = inputs.length
    · exact hne.trans hne'.symm
    · rw [hne, Function.update_self] at hr
      rw [Function.update_of_ne hne'] at hr'
      obtain rfl := Option.some.inj hr
      exact absurd hr' (hunused r')
    · rw [Function.update_of_ne hne] at hr
      rw [hne', Function.update_self] at hr'
      obtain rfl := Option.some.inj hr'
      exact absurd hr (hunused r)
    · rw [Function.update_of_ne hne] at hr
      rw [Function.update_of_ne hne'] at hr'
      exact h.injective r r' k hr hr'

end Backing

namespace Stands

variable {e : StreamPoint × Instant}

/-- An entry still stands for its send if no send comes in that expects the same acknowledgment. -/
theorem kept (h : l.Stands inputs backing e)
    (hother : ∀ s, input.segment? l.session .clientToServer = some s → s.coveringAck ≠ e.1.seq) :
    l.Stands (inputs ++ [input]) backing e := by
  obtain ⟨hflow, c, send, hsend, hseq, hseen, hunused⟩ := h
  refine ⟨hflow, c, send, ?_, hseq, hseen, hunused⟩
  rw [List.length_append, List.length_singleton]
  refine hsend.append_last fun s hs => ?_
  rw [hseq]
  exact hother s hs

theorem kept_of_silent (h : l.Stands inputs backing e)
    (hsilent : input.segment? l.session .clientToServer = none) :
    l.Stands (inputs ++ [input]) backing e := by
  refine h.kept fun s hs => ?_
  rw [hsilent] at hs
  exact absurd hs (by simp)

/-- A send that comes in is stood for by its own entry. -/
theorem sent (h : l.Backing config registry inputs backing) {s : Segment}
    (hs : input.segment? l.session .clientToServer = some s) :
    l.Stands (inputs ++ [input]) backing (⟨l.session.key, s.coveringAck⟩, s.seen) := by
  refine ⟨rfl, inputs.length, s, ?_, rfl, rfl, fun r hr => ?_⟩
  · rw [List.length_append, List.length_singleton]
    exact LastSend.new hs
  · obtain ⟨send, answer, hsend, -⟩ := h.backed r _ hr
    exact absurd (h.place_lt hr) (Nat.not_lt.mpr (Nat.le_of_lt hsend.before))

/-- After a sample the other entries stand for other sends: one that stood for the same send would be
the entry that has gone. -/
theorem answered {a : StreamPoint × Instant} (ha : l.Stands inputs backing a) (hne : a ≠ e)
    (hflow : e.1.flow = l.session.key) {c : Nat} {send : Segment}
    (hsend : l.LastSend inputs inputs.length c send) (hseq : send.coveringAck = e.1.seq)
    (hseen : send.seen = e.2) (hsilent : input.segment? l.session .clientToServer = none) :
    l.Stands (inputs ++ [input]) (Function.update backing inputs.length (some c)) a := by
  obtain ⟨haflow, k, last, hlast, hkseq, hkseen, hunused⟩ := ha.kept_of_silent hsilent
  refine ⟨haflow, k, last, hlast, hkseq, hkseen, fun r hr => ?_⟩
  by_cases hr' : r = inputs.length
  · rw [hr', Function.update_self] at hr
    obtain rfl := Option.some.inj hr
    have hsame : send = last := Option.some.inj
      ((hsend.append (Nat.le_refl _) [input]).sent.symm.trans hlast.sent)
    have hseqs : a.1.seq = e.1.seq := by rw [← hkseq, ← hsame, hseq]
    have htimes : a.2 = e.2 := by rw [← hkseen, ← hsame, hseen]
    have hflows : a.1.flow = e.1.flow := haflow.trans hflow.symm
    rcases a with ⟨⟨flow, seq⟩, seen⟩
    rcases e with ⟨⟨flow', seq'⟩, seen'⟩
    exact hne (Prod.ext (congrArg₂ StreamPoint.mk hflows hseqs) htimes)
  · rw [Function.update_of_ne hr'] at hr
    exact hunused r hr

end Stands

namespace Traced

theorem nil (hrefl : l.cache.Reflects m) (hopen : m.closed = false) (hempty : m.entries = []) :
    l.Traced config registry [] (fun _ => none) where
  unbacked := fun r _ => by rw [after_past (Nat.zero_le r)]
  backed := fun r c hr => absurd hr (by simp)
  injective := fun r r' c hr => absurd hr (by simp)
  live := ⟨m, hrefl, hopen, fun e he => absurd (hempty ▸ he) List.not_mem_nil⟩

/-- **One more input.** -/
theorem append (hl : l.session.TwoSided) (h : l.Traced config registry inputs backing)
    (input : Input) : ∃ backing', l.Traced config registry (inputs ++ [input]) backing' := by
  obtain ⟨m, hreflects, hopen, hlive⟩ := h.live
  have htwo := twoSided_replay config registry hl inputs
  have hkey : (l.replay config registry inputs).1.session.key = l.session.key :=
    key_replay config registry inputs
  have hsegment := fun d => Input.segment?_congr hkey d input
  obtain ⟨m', hreflects', hopen', hsampling⟩ :=
    @sampling_turn config registry _ _ htwo hreflects hopen input
  have hnext : (l.replay config registry (inputs ++ [input])).1 =
      ((l.replay config registry inputs).1.turn config registry {} input).next :=
    replay_append l inputs [input]
  rw [← hnext] at hreflects'
  generalize hrtt : ((l.replay config registry inputs).1.turn config registry {}
    input).next.session.rtt = rtt at hsampling
  cases hsampling with
  | quiet hnone hkept =>
    rw [hsegment] at hnone
    refine ⟨backing, h.append_unbacked hrtt, m', hreflects', hopen', fun e he => ?_⟩
    exact (hlive e (hkept e he)).kept_of_silent hnone
  | @sent s hroute hkept =>
    rw [hkey] at hkept
    rw [hsegment] at hroute
    refine ⟨backing, h.append_unbacked hrtt, m', hreflects', hopen', fun e he => ?_⟩
    rcases hkept e he with rfl | ⟨hold, hne⟩
    · exact .sent h.toBacking hroute
    · -- A send that expects the same would have replaced this entry.
      refine (hlive e hold).kept fun s' hs' heq => hne ?_
      rw [hroute] at hs'
      obtain rfl := Option.some.inj hs'
      rw [heq, ← (hlive e hold).1]
  | @answered s e hroute hnot he hnear hkept =>
    rw [hsegment] at hroute hnot
    obtain ⟨hflow, c, send, hsend, hseq, hseen, hunused⟩ := hlive e he
    rw [← hseq] at hnear
    rw [← hseen] at hrtt
    by_cases hpos : 0 ≤ s.seen - send.seen
    · refine ⟨_, h.append_backed hsend hunused hroute hnear hpos hrtt, m', hreflects', hopen',
        fun a ha => ?_⟩
      obtain ⟨hold, hne⟩ := hkept a ha
      exact (hlive a hold).answered hne hflow hsend hseq hseen hnot
    · -- A negative time is not recorded, and the entry is gone all the same.
      rw [RoundTrips.add_of_neg _ (Int.not_le.mp hpos)] at hrtt
      refine ⟨backing, h.append_unbacked hrtt, m', hreflects', hopen', fun a ha => ?_⟩
      exact (hlive a (hkept a ha).1).kept_of_silent hnot

end Traced

/-- **Every list of inputs has such an assignment**, from a session on an empty cache on. The
induction is on the inputs from the end, so that places keep their meaning. -/
theorem exists_backing (hl : l.session.TwoSided) (hreflects : l.cache.Reflects m)
    (hopen : m.closed = false) (hempty : m.entries = []) (inputs : List Input) :
    ∃ backing, l.Backing config registry inputs backing := by
  suffices h : ∃ backing, l.Traced config registry inputs backing from h.imp fun _ h => h.toBacking
  induction inputs using List.reverseRecOn with
  | nil => exact ⟨_, Traced.nil hreflects hopen hempty⟩
  | append_singleton inputs input ih =>
    obtain ⟨backing, h⟩ := ih
    exact h.append hl input

/-- A brand-new session on a brand-new cache is one to start from. -/
theorem exists_backing_begin (config : Config) (registry : Registry) (key : Flow) (now : Instant)
    (inputs : List Input) :
    ∃ backing, (begin config key now).Backing config registry inputs backing :=
  exists_backing (.new key now) (.new config.rttMaxAge) rfl rfl inputs

/-! ## Counting samples -/

/-- The places where a sample was recorded. -/
def sampledPlaces (backing : Nat → Option Nat) (n : Nat) : Finset Nat :=
  (Finset.range n).filter fun r => (backing r).isSome

/-- The places of the segments of a direction. -/
def placesOn (l : Lifecycle) (d : Direction) (inputs : List Input) : Finset Nat :=
  (Finset.range inputs.length).filter fun k => (l.segmentAt? d inputs k).isSome

theorem card_placesOn (l : Lifecycle) (d : Direction) (inputs : List Input) :
    (l.placesOn d inputs).card = (segmentsOn l.session d inputs).length := by
  induction inputs using List.reverseRecOn with
  | nil => rfl
  | append_singleton inputs input ih =>
    have hbefore : (Finset.range inputs.length).filter
        (fun k => (l.segmentAt? d (inputs ++ [input]) k).isSome) = l.placesOn d inputs := by
      refine Finset.filter_congr fun k hk => ?_
      rw [segmentAt?_append (Finset.mem_range.mp hk)]
    unfold placesOn segmentsOn at *
    rw [List.length_append, List.length_singleton, Finset.range_add_one, Finset.filter_insert,
      hbefore, segmentAt?_append_last, List.filterMap_append, List.length_append, ← ih]
    rcases hi : input.segment? l.session d with _ | s
    · rw [if_neg (by simp), List.filterMap_cons_none hi]
      rfl
    · have hnew : inputs.length ∉ (Finset.range inputs.length).filter
          fun k => (l.segmentAt? d inputs k).isSome := by
        simp
      rw [if_pos Option.isSome_some, Finset.card_insert_of_notMem hnew, List.filterMap_cons_some hi]
      rfl

namespace Backing

/-- A server's segment has one sample at most. -/
theorem card_le_answers (h : l.Backing config registry inputs backing) :
    (sampledPlaces backing inputs.length).card ≤
      (segmentsOn l.session .serverToClient inputs).length := by
  rw [← card_placesOn]
  refine Finset.card_le_card fun r hr => ?_
  obtain ⟨hlt, hsome⟩ := Finset.mem_filter.mp hr
  obtain ⟨c, hc⟩ := Option.isSome_iff_exists.mp hsome
  obtain ⟨send, answer, -, hanswer, -⟩ := h.backed r c hc
  exact Finset.mem_filter.mpr ⟨hlt, Option.isSome_iff_exists.mpr ⟨answer, hanswer⟩⟩

/-- A client's segment backs one sample at most. -/
theorem card_le_sends (h : l.Backing config registry inputs backing) :
    (sampledPlaces backing inputs.length).card ≤
      (segmentsOn l.session .clientToServer inputs).length := by
  rw [← card_placesOn]
  refine Finset.card_le_card_of_injOn (fun r => (backing r).getD 0) ?_ ?_
  · intro r hr
    obtain ⟨-, hsome⟩ := Finset.mem_filter.mp hr
    obtain ⟨c, hc⟩ := Option.isSome_iff_exists.mp hsome
    obtain ⟨send, answer, hsend, -⟩ := h.backed r c hc
    dsimp only
    rw [hc, Option.getD_some]
    exact Finset.mem_filter.mpr
      ⟨Finset.mem_range.mpr (lt_of_segmentAt? hsend.sent),
        Option.isSome_iff_exists.mpr ⟨send, hsend.sent⟩⟩
  · intro r hr r' hr' heq
    obtain ⟨c, hc⟩ := Option.isSome_iff_exists.mp (Finset.mem_filter.mp hr).2
    obtain ⟨c', hc'⟩ := Option.isSome_iff_exists.mp (Finset.mem_filter.mp hr').2
    dsimp only at heq
    rw [hc, hc', Option.getD_some, Option.getD_some] at heq
    subst heq
    exact h.injective r r' c hc hc'

/-- The statistics count the places. -/
theorem count_eq (h : l.Backing config registry inputs backing) (k : Nat) :
    (l.after config registry inputs k).session.rtt.count =
      l.session.rtt.count + UInt64.ofNat (sampledPlaces backing k).card := by
  induction k with
  | zero => exact (UInt64.add_zero _).symm
  | succ k ih =>
    unfold sampledPlaces at ih ⊢
    rw [Finset.range_add_one, Finset.filter_insert]
    rcases hk : backing k with _ | c
    · rw [if_neg (by simp), h.unbacked k hk]
      exact ih
    · obtain ⟨send, answer, -, -, -, hpos, hrtt⟩ := h.backed k c hk
      have hnew : k ∉ (Finset.range k).filter fun r => (backing r).isSome := by
        simp
      rw [if_pos Option.isSome_some, hrtt, RoundTrips.count_add _ hpos, ih, Finset.card_insert_of_notMem hnew,
        UInt64.ofNat_add, UInt64.add_assoc]
      rfl

end Backing

/-- The figures of a session with `samples` samples, `sends` segments of the client and `answers`
segments of the server. The words that hold them wrap; as long as the packets fit, a summary shows no
more samples than packets in either direction. -/
structure SampleFigures (session : Session) (samples sends answers : Nat) : Prop where
  samples_le_sends : samples ≤ sends
  samples_le_answers : samples ≤ answers
  count_eq : session.rtt.count = UInt64.ofNat samples
  forward_eq : session.forward.packets = UInt64.ofNat sends
  backward_eq : session.backward.packets = UInt64.ofNat answers
  summary_le : sends < UInt64.size → answers < UInt64.size → ∀ reason figures,
    (session.summary reason).rtt = some figures →
      figures.samples ≤ (session.summary reason).forward.packets ∧
        figures.samples ≤ (session.summary reason).backward.packets

/-- **The figures of a lifecycle** on a new session. -/
theorem Backing.figures {key : Flow} {now : Instant} {cache : SeqCache}
    (hl : l = ⟨.new key now, cache⟩) (h : l.Backing config registry inputs backing) :
    SampleFigures (l.replay config registry inputs).1.session
      (sampledPlaces backing inputs.length).card
      (segmentsOn l.session .clientToServer inputs).length
      (segmentsOn l.session .serverToClient inputs).length := by
  have htwo : l.session.TwoSided := by
    rw [hl]
    exact .new key now
  have hpackets : ∀ d, ((l.replay config registry inputs).1.session.side d).packets =
      UInt64.ofNat (segmentsOn l.session d inputs).length := by
    intro d
    have htotal := congrArg Traffic.packets (total_replay config registry htwo inputs d)
    have hzero : (l.session.side d).total = 0 := by
      rw [hl]
      cases d <;> rfl
    rw [hzero, zero_add] at htotal
    exact htotal
  have hcount : (l.replay config registry inputs).1.session.rtt.count =
      UInt64.ofNat (sampledPlaces backing inputs.length).card := by
    have hzero : l.session.rtt.count = 0 := by
      rw [hl]
      rfl
    rw [← after_of_le (Nat.le_refl _), h.count_eq, hzero]
    exact UInt64.zero_add _
  have hsends := h.card_le_sends
  have hanswers := h.card_le_answers
  refine ⟨hsends, hanswers, hcount, hpackets .clientToServer, hpackets .serverToClient, ?_⟩
  intro hs ha reason figures hfigures
  rw [RoundTrips.samples_summary hfigures, hcount]
  have hle : ∀ {a b : Nat}, a ≤ b → b < UInt64.size → UInt64.ofNat a ≤ UInt64.ofNat b := by
    intro a b hab hb
    rw [UInt64.le_iff_toNat_le, UInt64.toNat_ofNat_of_lt' hb,
      UInt64.toNat_ofNat_of_lt' (Nat.lt_of_le_of_lt hab hb)]
    exact hab
  exact ⟨(hle hsends hs).trans_eq (hpackets .clientToServer).symm,
    (hle hanswers ha).trans_eq (hpackets .serverToClient).symm⟩

end Lifecycle

end FlowWatch
