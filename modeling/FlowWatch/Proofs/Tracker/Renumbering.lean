/-
Renumbering a connection does not matter.

Two runs of a tracker get the same calls, but in the second one all positions of a connection are moved,
those of each direction by a number of its own. The two pools stay twins call by call, so the second run
goes through the moved steps of the first. What twins have in common is everything but the caches, and
nothing that is reported is taken from there.
-/
import FlowWatch.Http.Decoding
import FlowWatch.Proofs.Pool.Shift

set_option autoImplicit false

namespace FlowWatch

/-- The segment with its connection renumbered: the positions of `f` moved by `a` and those of the
reversal of `f` by `b`, wherever they stand. -/
def Segment.renumber (f : Flow) (a b : Sequence) (s : Segment) : Segment :=
  if s.flow = f then { s with seq := s.seq + a, ack := s.ack + b }
  else if s.flow = f.reverse then { s with seq := s.seq + b, ack := s.ack + a }
  else s

/-- The call with the segment in it replaced. -/
def TrackerCall.mapSegment (g : Segment → Segment) : TrackerCall → TrackerCall
  | .feed s => .feed (g s)
  | .submit h s => .submit h (g s)
  | call => call

/-- The offsets by which a connection is renumbered. -/
def Flow.offsets (f : Flow) (a b : Sequence) (g : Flow) : Sequence :=
  if g = f then a else if g = f.reverse then b else 0

theorem Flow.offsets_self (f : Flow) (a b : Sequence) : f.offsets a b f = a := if_pos rfl

theorem Flow.offsets_reverse {f : Flow} (hf : f.reverse ≠ f) (a b : Sequence) :
    f.offsets a b f.reverse = b := by
  unfold offsets
  rw [if_neg hf, if_pos rfl]

/-- Between two different endpoints, renumbering is a shift. -/
theorem Segment.renumber_eq_shift {f : Flow} (hf : f.reverse ≠ f) (a b : Sequence) (s : Segment) :
    s.renumber f a b = s.shift (f.offsets a b) := by
  unfold renumber shift
  by_cases hforth : s.flow = f
  · rw [if_pos hforth, hforth, Flow.offsets_self, Flow.offsets_reverse hf]
  · by_cases hback : s.flow = f.reverse
    · rw [if_neg hforth, if_pos hback, hback, Flow.reverse_reverse, Flow.offsets_self,
        Flow.offsets_reverse hf]
    · -- A flow of another connection, and so is its reversal.
      have hflow : f.offsets a b s.flow = 0 := by
        unfold Flow.offsets
        rw [if_neg hforth, if_neg hback]
      have hreverse : f.offsets a b s.flow.reverse = 0 := by
        unfold Flow.offsets
        rw [if_neg fun h => hback (by rw [← h, Flow.reverse_reverse]),
          if_neg fun h => hforth (by rw [← s.flow.reverse_reverse, h, Flow.reverse_reverse])]
      rw [if_neg hforth, if_neg hback, hflow, hreverse, add_zero, add_zero]

namespace Pool

variable {o : Flow → Sequence} {p q : Pool}

namespace Twins

/-! ## What twins have in common -/

theorem journal_eq (h : Twins o p q) : q.journal = p.journal := by
  obtain ⟨slots, rfl, -⟩ := h
  rfl

theorem counters_eq (h : Twins o p q) : q.counters = p.counters := by
  obtain ⟨slots, rfl, -⟩ := h
  rfl

theorem selected_eq (h : Twins o p q) {select : Slot → Bool}
    (hselect : ∀ (a : Slot) (e : SeqCache), select { a with cache := e } = select a) :
    q.selected select = p.selected select := by
  refine h.alike.selected_eq Slot.Twin.likeness ?_
  rintro a - ⟨e, rfl, -⟩
  exact hselect a e

theorem openSessions_eq (h : Twins o p q) : q.openSessions = p.openSessions := by
  have hnone : ∀ i : Nat, p.slots[i]? = none → q.slots[i]? = none := fun i => h.alike.slot_none
  obtain ⟨slots, rfl, hslots⟩ := h
  unfold openSessions
  apply List.filterMap_congr
  rintro ⟨key, i⟩ -
  rcases hs : p.slots[i]? with _ | slot
  · dsimp only
    rw [show slots[i]? = none from hnone i hs, hs]
  · obtain ⟨e, hs', -⟩ := hslots.get i slot hs
    dsimp only
    rw [hs', hs]
    rfl

theorem figures_eq (h : Twins o p q) : q.figures = p.figures := by
  obtain ⟨slots, rfl, hslots⟩ := h
  unfold figures
  dsimp only
  rw [hslots.size_eq]

/-! ## The steps of a call -/

theorem submitSteps_eq (h : Twins o p q) (handle : Handle) (s : Segment) :
    q.submitSteps handle (s.shift o) = (p.submitSteps handle s).map (·.shift o) := by
  unfold submitSteps
  rw [h.accept_eq]
  rcases p.accept handle with refusal | _ <;> rfl

theorem feedSteps_eq (h : Twins o p q) (hp : p.Consistent) (s : Segment) :
    q.feedSteps (s.shift o) = (p.feedSteps s).map (·.shift o) := by
  obtain ⟨htwins, hhandle⟩ := h.resolve hp s.flow s.flags.isOpening s.flags.isEnding s.seen
  rcases hresolved : p.resolve s.flow s.flags.isOpening s.flags.isEnding s.seen with ⟨p', found⟩
  rcases hother : q.resolve s.flow s.flags.isOpening s.flags.isEnding s.seen with ⟨q', found'⟩
  rw [hresolved, hother] at htwins hhandle
  obtain rfl : found' = found := hhandle
  rw [feedSteps_of_resolve hresolved, feedSteps_of_resolve (s := s.shift o) hother]
  rcases found' with _ | handle
  · rfl
  · exact congrArg (PoolStep.seek s :: ·) (htwins.submitSteps_eq handle s)

theorem closeSteps_eq (h : Twins o p q) (handle : Handle) (reason : CloseReason) :
    q.closeSteps handle reason = (p.closeSteps handle reason).map (·.shift o) := by
  unfold closeSteps
  rw [h.accept_eq]
  rcases p.accept handle with refusal | _ <;> rfl

theorem flushSteps_eq (h : Twins o p q) {select : Slot → Bool}
    (hselect : ∀ (a : Slot) (e : SeqCache), select { a with cache := e } = select a) :
    q.flushSteps select = (p.flushSteps select).map (·.shift o) := by
  unfold flushSteps
  rw [h.selected_eq hselect, List.map_map]
  rfl

/-- The second run goes through the moved steps of the first. -/
theorem stepsOf_eq (h : Twins o p q) (hp : p.Consistent) (call : TrackerCall) :
    q.stepsOf (call.mapSegment (·.shift o)) = (p.stepsOf call).map (·.shift o) := by
  cases call with
  | feed s => exact h.feedSteps_eq hp s
  | resolve key isOpening isEnding now => rfl
  | submit handle s => exact h.submitSteps_eq handle s
  | closeBy handle reason => exact h.closeSteps_eq handle reason
  | flushOlder cutoff => exact h.flushSteps_eq fun a e => rfl
  | flushAll => exact h.flushSteps_eq fun a e => rfl
  | tick i elapsed =>
    obtain ⟨slots, rfl, -⟩ := h
    rfl

/-- **Moved positions do not show in a run.** -/
theorem calls (h : Twins o p q) (hp : p.Consistent) (hq : q.Consistent) (hb : p.Balanced)
    (calls : List TrackerCall) :
    Twins o (p.steps (p.stepsOfAll calls))
      (q.steps (q.stepsOfAll (calls.map (·.mapSegment (·.shift o))))) := by
  induction calls generalizing p q with
  | nil => exact h
  | cons call calls ih =>
    rw [List.map_cons, stepsOfAll, stepsOfAll, steps_append, steps_append, h.stepsOf_eq hp]
    exact ih (h.steps hp hq hb _) (hp.steps _) (hq.steps _) (hb.steps hp _)

end Twins

end Pool

/-- **Renumbering a connection does not matter.** When all positions of the connection between two
different endpoints are moved, those of the one direction by `a` and those of the other by `b`, a run
reports the same: every summary, every exchange and every other notice in the same order, the same
counters of the interface, the same figures of the pool, and the same open sessions. -/
theorem Tracker.renumbering_invisible (name : String) (config : Config) (registry : Registry)
    {f : Flow} (hf : f.reverse ≠ f) (a b : Sequence) (calls : List TrackerCall) :
    let p := ((Tracker.new name config registry).run calls).pool
    let q := ((Tracker.new name config registry).run
      (calls.map (·.mapSegment (·.renumber f a b)))).pool
    q.journal = p.journal ∧ q.counters = p.counters ∧ q.figures = p.figures ∧
      q.openSessions = p.openSessions := by
  have hshift : (fun s : Segment => s.renumber f a b) = (·.shift (f.offsets a b)) := by
    funext s
    exact s.renumber_eq_shift hf a b
  have hnew := Pool.Consistent.new config registry
  have htwins := (Pool.Twins.new config registry (o := f.offsets a b)).calls hnew hnew
    (Pool.Balanced.new config registry) calls
  have hrun := (Tracker.new name config registry).pool_run
  dsimp only
  rw [hshift, hrun, hrun]
  exact ⟨htwins.journal_eq, htwins.counters_eq, htwins.figures_eq, htwins.openSessions_eq⟩

/-- A handshake and a flush, with the client's numbers moved so that its first acknowledgment lies
beyond the end of the circle. -/
theorem Tracker.handshake_across_wrap :
    let f : Flow := ⟨.v4 ⟨10, 0, 0, 1⟩, 40000, .v4 ⟨10, 0, 0, 2⟩, 80⟩
    let opening : Segment := ⟨f, { syn := true }, 100, 0, [], 0⟩
    let answer : Segment := ⟨f.reverse, { syn := true, ack := true }, 500, 101, [], 7000⟩
    let calls : List TrackerCall := [.feed opening, .feed answer, .flushAll]
    let p := ((Tracker.new "eth0" {} .standard).run calls).pool
    let q := ((Tracker.new "eth0" {} .standard).run
      (calls.map (·.mapSegment (·.renumber f 4294967195 9)))).pool
    f.reverse ≠ f ∧ (opening.renumber f 4294967195 9).seq = 4294967295 ∧
      (answer.renumber f 4294967195 9).ack = 0 ∧ (answer.renumber f 4294967195 9).seq = 509 ∧
      q.journal = p.journal ∧ q.counters = p.counters ∧ q.figures = p.figures ∧
      q.openSessions = p.openSessions := by
  intro f opening answer calls p q
  have hf : f.reverse ≠ f := by decide
  refine ⟨hf, by decide, by decide, by decide, ?_⟩
  exact Tracker.renumbering_invisible "eth0" {} .standard hf 4294967195 9 calls

end FlowWatch
