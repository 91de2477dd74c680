/-
Traffic is conserved.

A segment that comes in has a session, or opens one, or is dropped, and which of the three is seen
before anything happens (`takes`). If it is not dropped, one generation takes it, and counts it in one
direction. So the packets on the interface are the segments that were taken, and what the interface
has counted is what all sessions have counted, the open ones and those with a summary.
-/
import FlowWatch.Proofs.Tracker.Isolation
import FlowWatch.Proofs.Tracker.Summaries

set_option autoImplicit false

namespace FlowWatch

/-- The packets of both directions. -/
def Counters.packets (c : Counters) : UInt64 := c.txPackets + c.rxPackets

namespace Pool

variable {p : Pool} {i : Nat} {slot : Slot} {session : Session}

/-! ## Steps that count nothing -/

/-- Whether a step hands over a segment. -/
def hasSegment : PoolStep → Bool
  | .attend _ (.segment _) => true
  | _ => false

namespace Consistent

theorem counters_step (h : Consistent p) {s : PoolStep} (hs : hasSegment s = false) :
    (p.step s).counters = p.counters := by
  have hm := h.move s
  generalize p.step s = q at hm
  cases hm with
  | still => rfl
  | seen => rfl
  | @starved _ _ _ now => exact (books_stocked (p := p.raised now)).2.1
  | @opened key _ _ now i free =>
    obtain ⟨-, -, hcounters, -⟩ := openAt_frame (p := (p.raised now).stocked) (i := i) free key now
    exact hcounters.trans (books_stocked (p := p.raised now)).2.1
  | @turned i slot session input =>
    cases input with
    | segment s => exact absurd hs (by simp [hasSegment])
    | tick now => rfl
  | @finished i slot session input =>
    cases input with
    | segment s => exact absurd hs (by simp [hasSegment])
    | tick now => rfl
  | closed => rfl

end Consistent

end Pool

end FlowWatch
