/-
When a session is done.

An endpoint ends its direction with a FIN or an RST. Each side of a session remembers whether its
endpoint has done so, and a side that takes such a segment looks at the other one. What it finds there is
what all segments so far have left, so the session is done with the first segment after which both
directions have been ended, in whatever order that came about and however often either was ended again.

The segment that finishes the session is a segment like any other before that: it is counted, it goes to
the cache, and its payload is inspected (`Handles`).
-/
import FlowWatch.Proofs.Session.Ageing
import FlowWatch.Proofs.Session.Dialogue

set_option autoImplicit false

namespace FlowWatch

namespace Lifecycle

/-- Who takes an input hangs on the key alone. -/
theorem Input.isFor_congr {s t : Session} (h : t.key = s.key) (input : Input) :
    input.isFor t = input.isFor s := by
  cases input with
  | segment segment => exact congrArg Option.isSome (Session.route_congr h segment.flow)
  | tick now => rfl

/-- Whether an input is a segment of the flow that ends it. -/
def Input.ends (f : Flow) : Input → Bool
  | .segment s => s.flow == f && s.flags.isEnding
  | .tick _ => false

/-- Whether the session is done with the input at place `k`. -/
def doneAt (config : Config) (registry : Registry) (l : Lifecycle) (inputs : List Input) (k : Nat) :
    Bool :=
  inputs[k]?.any fun input =>
    ((l.after config registry inputs k).turn config registry {} input).done

/-- **What a session does with a segment** of direction `d`, whatever the interface has counted so far:
it counts it there and nowhere else, makes the one call to its cache and records the answer, and inspects
the payload, if there is any. -/
structure Handles (config : Config) (registry : Registry) (l : Lifecycle) (s : Segment)
    (d : Direction) : Prop where
  routed : l.session.route s.flow = some d
  counted : ∀ counters e, let t := l.turn config registry counters (.segment s)
    (t.next.session.side e).total =
        (l.session.side e).total + Traffic.ofSegments (if d = e then [s] else []) ∧
      t.counters.traffic e = counters.traffic e + Traffic.ofSegments (if d = e then [s] else [])
  sampled : ∀ counters, let t := l.turn config registry counters (.segment s)
    t.next.cache = l.cache.after (Input.cacheCall? l.session (.segment s)).toList ∧
      t.next.session.rtt = (l.sample? (.segment s)).elim l.session.rtt l.session.rtt.add
  inspected : ∀ counters, let t := l.turn config registry counters (.segment s)
    let heard := l.session.listen config registry (if s.payload.isEmpty then [] else [s])
    t.next.session.dialogue = heard.1.dialogue ∧ t.notices = heard.2

variable (config : Config) (registry : Registry) (counters : Counters) {l : Lifecycle}

/-! ## One turn -/

theorem handles_of_routed (hl : l.session.TwoSided) (hopen : l.cache.closed = false) {s : Segment}
    {d : Direction} (hroute : l.session.route s.flow = some d) :
    Handles config registry l s d where
  routed := hroute
  counted counters e := by
    have hcounted := traffic_turn config registry counters hl (.segment s) e
    have hbrings : ((Input.segment s).segment? l.session e).toList = if d = e then [s] else [] := by
      unfold Input.segment?
      dsimp only
      by_cases hed : d = e
      · rw [if_pos hed, if_pos (hroute.trans (congrArg some hed))]
        rfl
      · rw [if_neg hed, if_neg fun h => hed (Option.some.inj (hroute.symm.trans h))]
        rfl
    rw [hbrings] at hcounted
    exact hcounted
  sampled counters := sampling_of_routed config registry counters hl hroute
  inspected counters := dialogue_routed config registry counters hl hopen hroute

/-- The cache is open as long as the session is. -/
theorem closed_replay (inputs : List Input) :
    (l.replay config registry inputs).1.cache.closed = l.cache.closed := by
  induction inputs generalizing l with
  | nil => rfl
  | cons input inputs ih => exact ih.trans (l.settings_turn config registry {} input).2

end Lifecycle

end FlowWatch
