/-
The marks of the last report.

A tick reports the traffic since the last one, and so each side remembers how far it was told. Nothing
else looks at these marks: a session without them (`unmarked`) makes of a segment what the session itself
makes of it. So a tick that finds nothing to purge and nobody idle leaves nothing behind that could
matter later, and `Since` says when that is: the session was seen, and all its waiting entries were sent,
not too long before the tick.
-/
import FlowWatch.Proofs.SeqCache.Answers
import FlowWatch.Proofs.SeqCache.Refinement
import FlowWatch.Proofs.Session.Figures

set_option autoImplicit false

namespace FlowWatch

/-! ## Sessions without marks -/

/-- The side before its first report. -/
def Side.unmarked (side : Side) : Side := { side with prevBytes := 0, prevPackets := 0 }

namespace Session

/-- The session before its first report. -/
def unmarked (s : Session) : Session :=
  { s with forward := s.forward.unmarked, backward := s.backward.unmarked }

variable (s : Session) (config : Config) (registry : Registry)

theorem absorb_unmarked (name : String) (event : AppEvent) :
    s.unmarked.absorb name event =
      ((s.absorb name event).1.unmarked, (s.absorb name event).2) := by
  cases event with
  | unknown => rfl
  | request request => rfl
  | response response =>
    unfold absorb
    have hpending : s.unmarked.pendingRequest = s.pendingRequest := rfl
    rw [hpending]
    rcases s.pendingRequest with _ | request <;> rfl

theorem inspect_unmarked (payload : List UInt8) (seen : Instant) :
    s.unmarked.inspect config registry payload seen =
      ((s.inspect config registry payload seen).1.unmarked,
        (s.inspect config registry payload seen).2) := by
  have haudience : s.unmarked.audience? config registry = s.audience? config registry := rfl
  have hcounted : { s.unmarked with inspected := s.unmarked.inspected + 1 } =
      { s with inspected := s.inspected + 1 }.unmarked := rfl
  unfold inspect
  rw [haudience, hcounted]
  rcases s.audience? config registry with _ | audience
  · rfl
  · dsimp only
    rcases (audience.ask registry payload seen).event with _ | ⟨name, event⟩
    · rfl
    · dsimp only
      rw [absorb_unmarked]

theorem side_unmarked (d : Direction) : s.unmarked.side d = (s.side d).unmarked := by
  cases d <;> rfl

end Session

theorem Side.receive_unmarked (side : Side) (segment : Segment) (oppositeWaiting : Bool)
    (ledger : Ledger) :
    side.unmarked.receive segment oppositeWaiting ledger =
      { side.receive segment oppositeWaiting ledger with
        side := (side.receive segment oppositeWaiting ledger).side.unmarked } := by
  have hclosed : side.unmarked.closed = side.closed := rfl
  unfold receive
  rw [hclosed]
  split_ifs <;> rfl

namespace Session

/-- The session with a segment of the time `seen` noted. -/
def active (s : Session) (seen : Instant) : Session := { s with lastSeen := max s.lastSeen seen }

/-- The session with what one of its sides has come to. -/
def noting (s : Session) (side : Side) (d : Direction) (rtt : RoundTrips) : Session :=
  { s.setSide side d with rtt := rtt }

/-- What a session makes of a segment, part by part. -/
theorem receiveOn_eq (s : Session) (config : Config) (registry : Registry) (cache : SeqCache)
    (counters : Counters) (d : Direction) (segment : Segment) :
    s.receiveOn config registry cache counters d segment =
      let r := s.active segment.seen
      let step := (r.side d).receive segment (r.side d.opposite).waitingClose
        ⟨cache, s.rtt, counters⟩
      let noted := r.noting step.side d step.ledger.rtt
      let heard := if step.inspect then noted.inspect config registry segment.payload segment.seen
        else (noted, [])
      ⟨heard.1, step.ledger.cache, step.ledger.counters, step.finish, heard.2⟩ := rfl

/-- **A segment does not see the marks.** -/
theorem receiveOn_unmarked (s : Session) (config : Config) (registry : Registry)
    (cache : SeqCache) (counters : Counters) (d : Direction) (segment : Segment) :
    let out := s.receiveOn config registry cache counters d segment
    s.unmarked.receiveOn config registry cache counters d segment =
      { out with session := out.session.unmarked } := by
  have hactive : s.unmarked.active segment.seen = (s.active segment.seen).unmarked := rfl
  have hnoting : ∀ (r : Session) (side : Side) (rtt : RoundTrips),
      r.unmarked.noting side.unmarked d rtt = (r.noting side d rtt).unmarked := by
    intro r side rtt
    cases d <;> rfl
  have hwaiting : ∀ side : Side, side.unmarked.waitingClose = side.waitingClose := fun _ => rfl
  have hrtt : s.unmarked.rtt = s.rtt := rfl
  rw [receiveOn_eq, receiveOn_eq, hactive]
  dsimp only
  rw [side_unmarked, side_unmarked, hwaiting, hrtt, Side.receive_unmarked]
  dsimp only
  rw [hnoting]
  split_ifs
  · rw [inspect_unmarked]
  · rfl

end Session

namespace Lifecycle

/-- The lifecycle before the first report. -/
def unmarked (l : Lifecycle) : Lifecycle := ⟨l.session.unmarked, l.cache⟩

variable (config : Config) (registry : Registry) (counters : Counters) (l : Lifecycle)

theorem turn_unmarked (s : Segment) :
    let turn := l.turn config registry counters (.segment s)
    l.unmarked.turn config registry counters (.segment s) =
      { turn with next := turn.next.unmarked } := by
  have hroute : l.unmarked.session.route s.flow = l.session.route s.flow := rfl
  rcases hd : l.session.route s.flow with _ | d
  · rw [turn_of_unrouted config registry counters hd,
      turn_of_unrouted config registry counters (hroute.trans hd)]
  · rw [turn_of_routed config registry counters hd,
      turn_of_routed config registry counters (hroute.trans hd)]
    dsimp only [unmarked]
    rw [Session.receiveOn_unmarked]

end Lifecycle

/-! ## Caches whose entries are not old -/

namespace RecencyList

/-- What is in a list after a push was pushed or was there before. -/
theorem mem_of_mem_push {m : RecencyList} {key : StreamPoint} {seen : Instant}
    {e : StreamPoint × Instant} (he : e ∈ (m.push key seen).1.entries) :
    e = (key, seen) ∨ e ∈ m.entries := by
  rcases hclosed : m.closed with _ | _
  · exact (mem_push hclosed he).imp_right And.left
  · unfold push at he
    rw [hclosed, if_pos rfl] at he
    exact Or.inr he

end RecencyList

namespace SeqCache

/-- Every waiting entry of the cache was sent at `lo` or later. -/
def Since (lo : Instant) (c : SeqCache) : Prop :=
  ∃ m, Reflects c m ∧ ∀ e ∈ m.entries, lo ≤ e.2

variable {lo now : Instant} {c : SeqCache}

theorem dropExpired_eq_self (now : Instant) (maxAge : Span) (fuel : Nat) :
    (dropExpired now maxAge fuel c).2 = 0 → (dropExpired now maxAge fuel c).1 = c := by
  cases fuel with
  | zero => exact fun _ => rfl
  | succ fuel =>
    unfold dropExpired
    rcases c.head with _ | i
    · exact fun _ => rfl
    · dsimp only
      rcases c.nodes[i]? with _ | node
      · exact fun _ => rfl
      · dsimp only
        split_ifs
        · exact fun _ => rfl
        · exact False.elim

/-- A purge that drops nothing leaves the cache as it is. -/
theorem purge_eq_self : (c.purge now).2 = 0 → (c.purge now).1 = c := by
  unfold purge
  rcases c.maxAge with _ | maxAge
  · exact fun _ => rfl
  · exact dropExpired_eq_self now maxAge c.size

namespace Since

theorem new (maxAge : Option Span) : Since lo (.new maxAge) :=
  ⟨.empty maxAge, .new maxAge, fun _ he => absurd he List.not_mem_nil⟩

theorem push (h : c.Since lo) (key : StreamPoint) {seen : Instant} (hseen : lo ≤ seen) :
    (c.push key seen).1.Since lo := by
  obtain ⟨m, hm, hentries⟩ := h
  refine ⟨_, (hm.push key seen).1, fun e he => ?_⟩
  rcases RecencyList.mem_of_mem_push he with rfl | hold
  · exact hseen
  · exact hentries e hold

theorem pull (h : c.Since lo) (key : StreamPoint) : (c.pull key).1.Since lo := by
  obtain ⟨m, hm, hentries⟩ := h
  exact ⟨_, (hm.pull key).1, fun e he => hentries e (RecencyList.mem_of_mem_pull he)⟩

theorem purge (h : c.Since lo) (now : Instant) : (c.purge now).1.Since lo := by
  obtain ⟨m, hm, hentries⟩ := h
  exact ⟨_, (hm.purge now).1, fun e he => hentries e (RecencyList.mem_of_mem_purge he)⟩

/-- Nothing expires before the greatest age has passed. -/
theorem purge_eq (h : c.Since lo) (hage : ∀ age, c.maxAge = some age → now ≤ lo + age) :
    c.purge now = (c, 0) := by
  obtain ⟨m, hm, hentries⟩ := h
  have hlive : ∀ e ∈ m.entries, ¬ RecencyList.isExpired m.maxAge now e = true := by
    intro e he
    unfold RecencyList.isExpired
    rw [← hm.maxAge_eq]
    rcases hmax : c.maxAge with _ | age
    · exact Bool.false_ne_true
    · rw [decide_eq_true_eq]
      have hbound := Int.le_trans (hage age hmax) (Int.add_le_add_right (hentries e he) age)
      exact fun hlt => absurd (Int.add_lt_of_lt_sub_left hlt) (Int.not_lt.mpr hbound)
  -- Entries are dropped from the oldest on, and already the first one may stay.
  have hcount : (c.purge now).2 = 0 := by
    rw [(hm.purge now).2]
    refine List.length_eq_zero_iff.mpr ?_
    rcases hlist : m.entries with _ | ⟨e, es⟩
    · rfl
    · exact List.takeWhile_cons_of_neg (hlive e (hlist ▸ List.mem_cons_self))
  exact Prod.ext (purge_eq_self hcount) hcount

end Since

end SeqCache

/-! ## Ticks that find nothing -/

/-- The session was seen at `lo` or later, and so was all that its cache waits for. -/
structure Lifecycle.Since (lo : Instant) (l : Lifecycle) : Prop where
  seen : lo ≤ l.session.lastSeen
  entries : l.cache.Since lo

/-- A tick finds the session awake and nothing to purge. -/
def Lifecycle.Quiet (config : Config) (l : Lifecycle) (now : Option Instant) : Prop :=
  ∀ t, now = some t → Session.isIdle l.session.lastSeen t config.idleTimeout = false ∧
    (l.cache.purge t).2 = 0

namespace Lifecycle

variable {lo : Instant} (config : Config) (registry : Registry) (counters : Counters)
  {l : Lifecycle}

theorem since_begin {now : Instant} (h : lo ≤ now) (key : Flow) :
    (begin config key now).Since lo :=
  ⟨h, .new config.rttMaxAge⟩

/-- Whether the cache is written or read, its entries are those of before and the segment at hand. -/
theorem since_sample {side : Side} {segment : Segment} {cache : SeqCache} (h : cache.Since lo)
    (hseen : lo ≤ segment.seen) (rtt : RoundTrips) :
    (side.sample segment cache rtt).1.Since lo := by
  unfold Side.sample
  rcases side.direction with _ | _
  · have hpush := h.push ⟨side.key, segment.coveringAck⟩ hseen
    revert hpush
    dsimp only
    rcases cache.push ⟨side.key, segment.coveringAck⟩ segment.seen with ⟨c, _ | _⟩ <;> exact id
  · have hpull := h.pull ⟨side.key.reverse, segment.ack⟩
    revert hpull
    dsimp only
    rcases cache.pull ⟨side.key.reverse, segment.ack⟩ with ⟨c, _ | _ | _⟩ <;> exact id

theorem since_segment (hl : l.Since lo) {s : Segment} (hseen : lo ≤ s.seen) :
    (l.turn config registry counters (.segment s)).next.Since lo := by
  rcases hroute : l.session.route s.flow with _ | d
  · rw [turn_of_unrouted config registry counters hroute]
    exact hl
  · obtain ⟨-, hlast⟩ := l.session.times_receiveOn config registry l.cache counters d s
    rw [turn_of_routed config registry counters hroute]
    refine ⟨?_, ?_⟩
    · rw [hlast]
      exact Int.le_trans hl.seen (Int.le_max_left _ _)
    · -- The cache is the one the side leaves; inspecting the payload does not touch it.
      rw [Session.receiveOn_eq]
      dsimp only
      unfold Side.receive
      split_ifs
      · exact hl.entries
      · exact since_sample hl.entries hseen _

theorem since_tick (hl : l.Since lo) (now : Option Instant) :
    (l.turn config registry counters (.tick now)).next.Since lo := by
  rcases now with _ | now
  · exact ⟨hl.seen, hl.entries⟩
  · exact ⟨hl.seen, hl.entries.purge now⟩

/-- **A tick that finds nothing changes nothing but the marks.** -/
theorem turn_quiet {now : Option Instant} (h : l.Quiet config now) :
    let turn := l.turn config registry counters (.tick now)
    turn.done = false ∧ turn.next.unmarked = l.unmarked ∧ turn.counters = counters ∧
      ∀ n ∈ turn.notices, n.summary? = none ∧ n.exchange? = none := by
  rcases now with _ | now
  · refine ⟨rfl, rfl, rfl, fun n hn => ?_⟩
    rcases List.mem_pair.mp hn with rfl | rfl <;> exact ⟨rfl, rfl⟩
  · obtain ⟨hawake, hnone⟩ := h now rfl
    have hpurge : l.cache.purge now = (l.cache, 0) :=
      Prod.ext (SeqCache.purge_eq_self hnone) hnone
    unfold turn Session.tick
    dsimp only
    rw [hpurge]
    dsimp only
    refine ⟨hawake, rfl, rfl, fun n hn => ?_⟩
    rcases List.mem_pair.mp hn with rfl | rfl <;> exact ⟨rfl, rfl⟩

/-- A tick that comes early enough finds nothing. -/
theorem Since.quiet (hl : l.Since lo) {now : Option Instant}
    (hidle : ∀ t, now = some t → t ≤ lo + config.idleTimeout)
    (hage : ∀ t, now = some t → ∀ age, l.cache.maxAge = some age → t ≤ lo + age) :
    l.Quiet config now := by
  intro t ht
  refine ⟨?_, congrArg Prod.snd (hl.entries.purge_eq (hage t ht))⟩
  have hbound := Int.le_trans (hidle t ht) (Int.add_le_add_right hl.seen config.idleTimeout)
  unfold Session.isIdle
  rw [Bool.and_eq_false_iff, decide_eq_false_iff_not]
  exact Or.inr fun hlt => absurd (Int.add_lt_of_lt_sub_right hlt) (Int.not_lt.mpr hbound)

end Lifecycle

end FlowWatch
