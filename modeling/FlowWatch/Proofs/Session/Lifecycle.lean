/-
One session on its own: a session and a cache that nobody else uses.

A lifecycle takes inputs, each a segment or a maintenance tick, and every input is one turn: the next
state, what is reported, whether the session is done, and the counters of the interface. The counters
pass through a turn and come back changed, but no turn looks at them; that is `turn_counters`, and it
is the reason why a lifecycle can be replayed without the interface it ran on.
-/
import FlowWatch.Proofs.SeqCache.Walks
import FlowWatch.Session.Basic
import Mathlib.Tactic.SplitIfs

set_option autoImplicit false

namespace FlowWatch

/-- A session and its cache. -/
structure Lifecycle where
  session : Session
  cache : SeqCache

namespace Lifecycle

/-- What a session is fed. A tick carries the capture time, which is absent before the first
segment. -/
inductive Input where
  | segment (segment : Segment)
  | tick (now : Option Instant)

namespace Input

/-- The newest activity of a slot after an input. -/
def touch : Input → Int → Int
  | .segment s, lastSeen => max lastSeen (clampInt64 s.seen)
  | .tick _, lastSeen => lastSeen

/-- Why a session closes that is done after an input. -/
def reason : Input → CloseReason
  | .segment _ => .finish
  | .tick _ => .timeout

/-- Whether a session takes an input: every tick, and the segments of its connection. -/
def isFor (session : Session) : Input → Bool
  | .segment s => (session.route s.flow).isSome
  | .tick _ => true

end Input

/-- What a lifecycle makes of an input. -/
structure Turn where
  next : Lifecycle
  notices : List Notice
  done : Bool
  counters : Counters

/-- One turn. A segment of another connection changes nothing. -/
def turn (config : Config) (registry : Registry) (counters : Counters) (l : Lifecycle) :
    Input → Turn
  | .segment s =>
    match l.session.route s.flow with
    | none => ⟨l, [], false, counters⟩
    | some direction =>
      let out := l.session.receiveOn config registry l.cache counters direction s
      ⟨⟨out.session, out.cache⟩, out.notices, out.finish, out.counters⟩
  | .tick now =>
    let out := l.session.tick config l.cache now
    ⟨⟨out.session, out.cache⟩, out.notices, out.idle, counters⟩

/-- A brand-new session with a brand-new cache. -/
def begin (config : Config) (key : Flow) (now : Instant) : Lifecycle :=
  ⟨.new key now, .new config.rttMaxAge⟩

/-- The lifecycle after a list of inputs, and what it has reported. -/
def replay (config : Config) (registry : Registry) (l : Lifecycle) :
    List Input → Lifecycle × List Notice
  | [] => (l, [])
  | input :: inputs =>
    let t := l.turn config registry {} input
    let later := t.next.replay config registry inputs
    (later.1, t.notices ++ later.2)

end Lifecycle

/-! ## What a turn leaves alone -/

theorem Side.settings_sample (side : Side) (segment : Segment) (cache : SeqCache)
    (rtt : RoundTrips) :
    (side.sample segment cache rtt).1.maxAge = cache.maxAge ∧
      (side.sample segment cache rtt).1.closed = cache.closed := by
  unfold sample
  cases side.direction with
  | clientToServer =>
    have h := cache.settings_push ⟨side.key, segment.coveringAck⟩ segment.seen
    revert h
    rcases cache.push ⟨side.key, segment.coveringAck⟩ segment.seen with ⟨d, _ | _⟩ <;> exact id
  | serverToClient =>
    have h := cache.settings_pull ⟨side.key.reverse, segment.ack⟩
    revert h
    rcases cache.pull ⟨side.key.reverse, segment.ack⟩ with ⟨d, _ | _ | _⟩ <;> exact id

namespace Session

variable (s : Session) (config : Config) (registry : Registry)

theorem key_setSide (side : Side) (direction : Direction) :
    (s.setSide side direction).key = s.key := by
  cases direction <;> rfl

theorem key_absorb (name : String) (event : AppEvent) : (s.absorb name event).1.key = s.key := by
  cases event with
  | unknown => rfl
  | request request => rfl
  | response response =>
    unfold absorb
    rcases s.pendingRequest with _ | request <;> rfl

theorem key_inspect (payload : List UInt8) (seen : Instant) :
    (s.inspect config registry payload seen).1.key = s.key := by
  unfold inspect
  rcases s.audience? config registry with _ | audience
  · rfl
  · dsimp only
    rcases (audience.ask registry payload seen).event with _ | ⟨name, event⟩
    · rfl
    · exact key_absorb _ name event

theorem key_receiveOn (cache : SeqCache) (counters : Counters) (direction : Direction)
    (segment : Segment) :
    (s.receiveOn config registry cache counters direction segment).session.key = s.key := by
  unfold receiveOn
  dsimp only
  split_ifs
  · rw [key_inspect]
    exact key_setSide _ _ _
  · exact key_setSide _ _ _

theorem key_tick (cache : SeqCache) (now : Option Instant) :
    (s.tick config cache now).session.key = s.key := by
  unfold tick
  rcases now with _ | now <;> rfl

/-- A session keeps the settings of its cache, whatever the cache answers. -/
theorem settings_receiveOn (cache : SeqCache) (counters : Counters) (direction : Direction)
    (segment : Segment) :
    (s.receiveOn config registry cache counters direction segment).cache.maxAge = cache.maxAge ∧
      (s.receiveOn config registry cache counters direction segment).cache.closed =
        cache.closed := by
  unfold receiveOn Side.receive
  dsimp only
  split_ifs
  · exact ⟨rfl, rfl⟩
  · exact Side.settings_sample _ segment cache s.rtt

theorem settings_tick (cache : SeqCache) (now : Option Instant) :
    (s.tick config cache now).cache.maxAge = cache.maxAge ∧
      (s.tick config cache now).cache.closed = cache.closed := by
  unfold tick
  rcases now with _ | now
  · exact ⟨rfl, rfl⟩
  · exact cache.settings_purge now

end Session

namespace Lifecycle

variable (config : Config) (registry : Registry) (counters : Counters) (l : Lifecycle)

theorem key_turn (input : Input) :
    (l.turn config registry counters input).next.session.key = l.session.key := by
  cases input with
  | segment s =>
    unfold turn
    dsimp only
    rcases l.session.route s.flow with _ | direction
    · rfl
    · exact l.session.key_receiveOn config registry l.cache counters direction s
  | tick now => exact l.session.key_tick config l.cache now

/-- No turn looks at the counters of the interface. -/
theorem turn_counters (other : Counters) (input : Input) :
    (l.turn config registry counters input).next = (l.turn config registry other input).next ∧
      (l.turn config registry counters input).notices =
        (l.turn config registry other input).notices ∧
      (l.turn config registry counters input).done =
        (l.turn config registry other input).done := by
  cases input with
  | segment s =>
    unfold turn
    dsimp only
    rcases l.session.route s.flow with _ | direction
    · exact ⟨rfl, rfl, rfl⟩
    · unfold Session.receiveOn Side.receive
      dsimp only
      split_ifs <;> exact ⟨rfl, rfl, rfl⟩
  | tick now => exact ⟨rfl, rfl, rfl⟩

/-- A turn keeps the settings of the cache. -/
theorem settings_turn (input : Input) :
    (l.turn config registry counters input).next.cache.maxAge = l.cache.maxAge ∧
      (l.turn config registry counters input).next.cache.closed = l.cache.closed := by
  cases input with
  | segment s =>
    unfold turn
    dsimp only
    rcases l.session.route s.flow with _ | direction
    · exact ⟨rfl, rfl⟩
    · exact l.session.settings_receiveOn config registry l.cache counters direction s
  | tick now => exact l.session.settings_tick config l.cache now

end Lifecycle

end FlowWatch
