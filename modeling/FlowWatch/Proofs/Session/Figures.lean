/-
The figures of a summary.

A summary shows when its session was seen first and last, how many exchanges it made and how much it has
counted. Each of these is said here of one turn: the times move with the segments, an exchange is counted
when it is told, and a side gains no more than the segment at hand. Amounts are taken as natural numbers,
which do not wrap, so what they add up to is an upper bound of what a 64-bit word can have counted.
-/
import FlowWatch.Proofs.Session.Traffic

set_option autoImplicit false

namespace FlowWatch

/-! ## When a session was seen -/

namespace Session

variable {s : Session} (config : Config) (registry : Registry)

theorem times_absorb (name : String) (event : AppEvent) :
    (s.absorb name event).1.firstSeen = s.firstSeen ∧
      (s.absorb name event).1.lastSeen = s.lastSeen := by
  cases event with
  | unknown => exact ⟨rfl, rfl⟩
  | request request => exact ⟨rfl, rfl⟩
  | response response =>
    unfold absorb
    rcases s.pendingRequest with _ | request <;> exact ⟨rfl, rfl⟩

theorem times_inspect (payload : List UInt8) (seen : Instant) :
    (s.inspect config registry payload seen).1.firstSeen = s.firstSeen ∧
      (s.inspect config registry payload seen).1.lastSeen = s.lastSeen := by
  unfold inspect
  rcases s.audience? config registry with _ | audience
  · exact ⟨rfl, rfl⟩
  · dsimp only
    rcases (audience.ask registry payload seen).event with _ | ⟨name, event⟩
    · exact ⟨rfl, rfl⟩
    · exact times_absorb name event

theorem times_receiveOn (cache : SeqCache) (counters : Counters) (d : Direction)
    (segment : Segment) :
    let out := s.receiveOn config registry cache counters d segment
    out.session.firstSeen = s.firstSeen ∧ out.session.lastSeen = max s.lastSeen segment.seen := by
  have hset : ∀ side : Side,
      ({ s with lastSeen := max s.lastSeen segment.seen }.setSide side d).firstSeen = s.firstSeen ∧
        ({ s with lastSeen := max s.lastSeen segment.seen }.setSide side d).lastSeen =
          max s.lastSeen segment.seen := by
    intro side
    cases d <;> exact ⟨rfl, rfl⟩
  unfold receiveOn
  dsimp only
  split_ifs
  · obtain ⟨hfirst, hlast⟩ := times_inspect config registry segment.payload segment.seen
    rw [hfirst, hlast]
    exact hset _
  · exact hset _

end Session

/-- The times of a session are among those that `A` holds of, and in order. -/
structure Session.Timed (A : Instant → Prop) (s : Session) : Prop where
  first : A s.firstSeen
  last : A s.lastSeen
  le : s.firstSeen ≤ s.lastSeen

namespace Lifecycle

variable {A : Instant → Prop} (config : Config) (registry : Registry) (counters : Counters)
  {l : Lifecycle}

theorem timed_begin {now : Instant} (h : A now) (key : Flow) :
    (begin config key now).session.Timed A :=
  ⟨h, h, Int.le_refl now⟩

/-- A segment moves the last activity to its time, or leaves it. -/
theorem timed_segment (hl : l.session.Timed A) {s : Segment} (h : A s.seen) :
    (l.turn config registry counters (.segment s)).next.session.Timed A := by
  rcases hroute : l.session.route s.flow with _ | d
  · rw [turn_of_unrouted config registry counters hroute]
    exact hl
  · obtain ⟨hfirst, hlast⟩ :=
      l.session.times_receiveOn config registry l.cache counters d s
    rw [turn_of_routed config registry counters hroute]
    refine ⟨?_, ?_, ?_⟩
    · rw [hfirst]
      exact hl.first
    · rw [hlast]
      rcases Int.le_total l.session.lastSeen s.seen with hle | hle
      · rw [Int.max_eq_right hle]
        exact h
      · rw [Int.max_eq_left hle]
        exact hl.last
    · rw [hfirst, hlast]
      exact Int.le_trans hl.le (Int.le_max_left _ _)

theorem timed_tick (hl : l.session.Timed A) (now : Option Instant) :
    (l.turn config registry counters (.tick now)).next.session.Timed A := by
  rcases now with _ | now <;> exact ⟨hl.first, hl.last, hl.le⟩

/-- A session stays as old as it was opened. -/
theorem firstSeen_turn (l : Lifecycle) (input : Input) :
    (l.turn config registry counters input).next.session.firstSeen = l.session.firstSeen := by
  cases input with
  | segment s =>
    rcases hroute : l.session.route s.flow with _ | d
    · rw [turn_of_unrouted config registry counters hroute]
    · rw [turn_of_routed config registry counters hroute]
      exact (l.session.times_receiveOn config registry l.cache counters d s).1
  | tick now => rcases now with _ | now <;> rfl

theorem firstSeen_replay (l : Lifecycle) (inputs : List Input) :
    (l.replay config registry inputs).1.session.firstSeen = l.session.firstSeen := by
  induction inputs generalizing l with
  | nil => rfl
  | cons input inputs ih => exact (ih _).trans (firstSeen_turn config registry {} l input)

end Lifecycle

/-! ## Exchanges -/

/-- The exchanges among some notices. -/
def Notice.exchangesIn (notices : List Notice) : List ExchangeRecord :=
  notices.filterMap Notice.exchange?

theorem Notice.exchangesIn_append (ms ns : List Notice) :
    exchangesIn (ms ++ ns) = exchangesIn ms ++ exchangesIn ns := List.filterMap_append

/-- From `s` to `t` a session has told some exchanges, one at most, and counted each of them. -/
structure Session.Pairs (s t : Session) (notices : List Notice) : Prop where
  count_eq : t.exchanges = s.exchanges + UInt64.ofNat (Notice.exchangesIn notices).length
  length_le : (Notice.exchangesIn notices).length ≤ 1
  parties : ∀ e ∈ Notice.exchangesIn notices, e.client = s.key.sender ∧ e.server = s.key.receiver

namespace Session

variable {s t u : Session} (config : Config) (registry : Registry)

/-- Nothing that is no exchange is counted. -/
theorem Pairs.silent {notices : List Notice} (hcount : t.exchanges = s.exchanges)
    (hnone : Notice.exchangesIn notices = []) : s.Pairs t notices := by
  refine ⟨?_, ?_, ?_⟩
  · rw [hnone, hcount]
    exact (UInt64.add_zero _).symm
  · rw [hnone]
    exact Nat.zero_le 1
  · rw [hnone]
    exact fun e he => absurd he List.not_mem_nil

/-- What comes before does not matter if it counts nothing. -/
theorem Pairs.congr {notices : List Notice} (h : s.Pairs t notices)
    (hkey : s.key = u.key) (hcount : s.exchanges = u.exchanges) : u.Pairs t notices := by
  obtain ⟨heq, hle, hparties⟩ := h
  rw [hkey] at hparties
  exact ⟨hcount ▸ heq, hle, hparties⟩

theorem pairs_absorb (name : String) (event : AppEvent) :
    s.Pairs (s.absorb name event).1 (s.absorb name event).2 := by
  cases event with
  | unknown => exact .silent rfl rfl
  | request request => exact .silent rfl rfl
  | response response =>
    unfold absorb
    rcases s.pendingRequest with _ | request
    · exact .silent rfl rfl
    · refine ⟨rfl, le_refl 1, fun e he => ?_⟩
      rw [List.mem_singleton.mp he]
      exact ⟨rfl, rfl⟩

theorem pairs_inspect (payload : List UInt8) (seen : Instant) :
    s.Pairs (s.inspect config registry payload seen).1
      (s.inspect config registry payload seen).2 := by
  unfold inspect
  rcases s.audience? config registry with _ | audience
  · exact .silent rfl rfl
  · dsimp only
    -- Which decoders were asked is told as well, and that is no exchange.
    have hcalls : Notice.exchangesIn
        ((audience.ask registry payload seen).called.map Notice.decoderCalled) = [] := by
      refine List.filterMap_eq_nil_iff.mpr fun n hn => ?_
      obtain ⟨name, -, rfl⟩ := List.mem_map.mp hn
      rfl
    rcases (audience.ask registry payload seen).event with _ | ⟨name, event⟩
    · exact .silent rfl hcalls
    · have habsorb := pairs_absorb (s := { s with inspected := s.inspected + 1 }) name event
      obtain ⟨heq, hle, hparties⟩ := habsorb.congr (u := s) rfl rfl
      refine ⟨?_, ?_, ?_⟩ <;> rw [Notice.exchangesIn_append, hcalls, List.nil_append]
      · exact heq
      · exact hle
      · exact hparties

theorem pairs_receiveOn (cache : SeqCache) (counters : Counters) (d : Direction)
    (segment : Segment) :
    s.Pairs (s.receiveOn config registry cache counters d segment).session
      (s.receiveOn config registry cache counters d segment).notices := by
  have hset : ∀ (side : Side) (rtt : RoundTrips),
      let r := { { s with lastSeen := max s.lastSeen segment.seen }.setSide side d with rtt := rtt }
      r.key = s.key ∧ r.exchanges = s.exchanges := by
    intro side rtt
    cases d <;> exact ⟨rfl, rfl⟩
  unfold receiveOn
  dsimp only
  split_ifs
  · exact (pairs_inspect config registry segment.payload segment.seen).congr (hset _ _).1
      (hset _ _).2
  · exact .silent (hset _ _).2 rfl

end Session

namespace Lifecycle

/-- How much an input can bring, if a segment brings as much as `weight` says. -/
def Input.gain (weight : Segment → Nat) : Input → Nat
  | .segment s => weight s
  | .tick _ => 0

variable (config : Config) (registry : Registry) (counters : Counters) {l : Lifecycle}

theorem pairs_tick (now : Option Instant) :
    (l.turn config registry counters (.tick now)).next.session.exchanges = l.session.exchanges ∧
      Notice.exchangesIn (l.turn config registry counters (.tick now)).notices = [] := by
  unfold turn Session.tick
  rcases now with _ | now
  · exact ⟨rfl, rfl⟩
  · dsimp only
    split_ifs <;> exact ⟨rfl, rfl⟩

/-- **A turn counts the exchange it tells**, and tells one for a segment at most. -/
theorem pairs_turn (input : Input) :
    let turn := l.turn config registry counters input
    l.session.Pairs turn.next.session turn.notices ∧
      (Notice.exchangesIn turn.notices).length ≤ input.gain fun _ => 1 := by
  cases input with
  | segment s =>
    rcases hroute : l.session.route s.flow with _ | d
    · rw [turn_of_unrouted config registry counters hroute]
      exact ⟨.silent rfl rfl, Nat.zero_le 1⟩
    · have hpairs := l.session.pairs_receiveOn config registry l.cache counters d s
      rw [turn_of_routed config registry counters hroute]
      exact ⟨hpairs, hpairs.length_le⟩
  | tick now =>
    obtain ⟨hcount, hnone⟩ := pairs_tick config registry counters (l := l) now
    refine ⟨.silent hcount hnone, ?_⟩
    rw [hnone]
    exact Nat.zero_le 0

end Lifecycle

/-! ## Amounts of traffic -/

namespace Traffic

/-- What traffic is measured in. -/
inductive Measure where
  | bytes
  | packets
  deriving DecidableEq

/-- The traffic in a measure. -/
def amount (t : Traffic) : Measure → UInt64
  | .bytes => t.bytes
  | .packets => t.packets

/-- What a segment is in a measure. -/
def Measure.weight : Measure → Segment → Nat
  | .bytes, s => s.payload.length
  | .packets, _ => 1

end Traffic

/-- What both sides of a session have counted, without wrapping. -/
def Session.counted (m : Traffic.Measure) (s : Session) : Nat :=
  (s.forward.total.amount m).toNat + (s.backward.total.amount m).toNat

end FlowWatch
