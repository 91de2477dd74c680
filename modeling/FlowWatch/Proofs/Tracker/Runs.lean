/-
Runs of a tracker.

A run is a list of calls from outside: segments, uses of the pool and of handles, flushes and the
ticks of single sessions. Whatever the call, the pool goes through steps, and which ones depends on
the pool alone (`stepsOf`). A run of the tracker is so a run of its pool, and what holds after every
list of steps holds after every list of calls.
-/
import FlowWatch.Tracker
import FlowWatch.Proofs.Pool.Consistency

set_option autoImplicit false

namespace FlowWatch

/-- One call from outside. A handle may be any, also one that was never given out. -/
inductive TrackerCall where
  | feed (segment : Segment)
  | resolve (key : Flow) (isOpening isEnding : Bool) (now : Instant)
  | submit (handle : Handle) (segment : Segment)
  | closeBy (handle : Handle) (reason : CloseReason)
  | flushOlder (cutoff : Instant)
  | flushAll
  /-- The session in a slot ticks, `elapsed` after the watermark was last raised. -/
  | tick (slot : Nat) (elapsed : Span)

/-- The step in which a segment looks for its session. -/
def PoolStep.seek (s : Segment) : PoolStep :=
  .resolve s.flow s.flags.isOpening s.flags.isEnding s.seen

namespace Pool

/-- Looking is about nobody. -/
@[simp] theorem tenantOf_seek (p : Pool) (s : Segment) : p.tenantOf (.seek s) = none := rfl

/-- The steps of handing a segment to a handle. -/
def submitSteps (p : Pool) (h : Handle) (s : Segment) : List PoolStep :=
  match p.accept h with
  | .error _ => []
  | .ok () => [.attend h.slot (.segment s)]

/-- The steps of a segment: it is resolved, and handed over if there is a session. -/
def feedSteps (p : Pool) (s : Segment) : List PoolStep :=
  .seek s :: match p.resolve s.flow s.flags.isOpening s.flags.isEnding s.seen with
    | (_, none) => []
    | (q, some h) => q.submitSteps h s

/-- The steps of closing through a handle. -/
def closeSteps (p : Pool) (h : Handle) (reason : CloseReason) : List PoolStep :=
  match p.accept h with
  | .error _ => []
  | .ok () => [.close h.slot h.generation reason]

/-- The steps of a flush. -/
def flushSteps (p : Pool) (select : Slot → Bool) : List PoolStep :=
  (p.selected select).map fun t => .close t.1 t.2 .flush

/-- The steps of a call. -/
def stepsOf (p : Pool) : TrackerCall → List PoolStep
  | .feed s => p.feedSteps s
  | .resolve key isOpening isEnding now => [.resolve key isOpening isEnding now]
  | .submit h s => p.submitSteps h s
  | .closeBy h reason => p.closeSteps h reason
  | .flushOlder cutoff => p.flushSteps fun slot => slot.lastSeen < cutoff
  | .flushAll => p.flushSteps fun _ => true
  | .tick i elapsed => [.attend i (.tick (p.watermark.after elapsed))]

/-- The steps of a list of calls. -/
def stepsOfAll (p : Pool) : List TrackerCall → List PoolStep
  | [] => []
  | call :: calls => p.stepsOf call ++ (p.steps (p.stepsOf call)).stepsOfAll calls

theorem stepsOfAll_append (p : Pool) (calls later : List TrackerCall) :
    p.stepsOfAll (calls ++ later) =
      p.stepsOfAll calls ++ (p.steps (p.stepsOfAll calls)).stepsOfAll later := by
  induction calls generalizing p with
  | nil => rfl
  | cons call calls ih =>
    rw [List.cons_append, stepsOfAll, stepsOfAll, ih, List.append_assoc, steps_append]

theorem steps_stepsOfAll_cons (p : Pool) (call : TrackerCall) (calls : List TrackerCall) :
    p.steps (p.stepsOfAll (call :: calls)) =
      (p.steps (p.stepsOf call)).steps ((p.steps (p.stepsOf call)).stepsOfAll calls) :=
  p.steps_append _ _

/-- What a segment goes through, by the answer it gets when it looks for its session. -/
theorem feedSteps_of_resolve {p q : Pool} {found : Option Handle} {s : Segment}
    (h : p.resolve s.flow s.flags.isOpening s.flags.isEnding s.seen = (q, found)) :
    p.feedSteps s = .seek s :: found.elim [] fun handle => q.submitSteps handle s := by
  unfold feedSteps
  rw [h]
  rcases found with _ | handle <;> rfl

/-- A segment is looked for, and it is handed over if it is anything else. -/
theorem mem_feedSteps {p : Pool} {s : Segment} {step : PoolStep} (h : step ∈ p.feedSteps s) :
    step = .seek s ∨ ∃ i, step = .attend i (.segment s) := by
  rcases hresolve : p.resolve s.flow s.flags.isOpening s.flags.isEnding s.seen with ⟨q, _ | handle⟩
  · rw [feedSteps_of_resolve hresolve] at h
    exact Or.inl (List.mem_singleton.mp h)
  · rw [feedSteps_of_resolve hresolve] at h
    refine (List.mem_cons.mp h).imp_right fun hlater => ⟨handle.slot, ?_⟩
    dsimp only [Option.elim, submitSteps] at hlater
    rcases haccept : q.accept handle with e | _ <;> rw [haccept] at hlater
    · exact absurd hlater List.not_mem_nil
    · exact List.mem_singleton.mp hlater

theorem submit_eq_steps (p : Pool) (h : Handle) (s : Segment) :
    (p.submit h s).1 = p.steps (p.submitSteps h s) := by
  unfold submit submitSteps
  rcases p.accept h with e | _ <;> rfl

theorem closeBy_eq_steps (p : Pool) (h : Handle) (reason : CloseReason) :
    (p.closeBy h reason).1 = p.steps (p.closeSteps h reason) := by
  unfold closeBy closeSteps
  rcases p.accept h with e | _ <;> rfl

theorem flush_eq_steps (p : Pool) (select : Slot → Bool) :
    (p.flushSelected select).1 = p.steps (p.flushSteps select) := by
  unfold flushSelected flushSteps steps
  rw [List.foldl_map]
  rfl

end Pool

namespace Tracker

/-- The tracker after one call. -/
def perform (t : Tracker) : TrackerCall → Tracker
  | .feed s => t.feed s
  | .resolve key isOpening isEnding now =>
    { t with pool := (t.pool.resolve key isOpening isEnding now).1 }
  | .submit h s => { t with pool := (t.pool.submit h s).1 }
  | .closeBy h reason => { t with pool := (t.pool.closeBy h reason).1 }
  | .flushOlder cutoff => t.flushOlder cutoff
  | .flushAll => t.flushAll
  | .tick i elapsed => { t with pool := t.pool.tickAfter elapsed i }

/-- The tracker after a list of calls. -/
def run (t : Tracker) (calls : List TrackerCall) : Tracker := calls.foldl perform t

theorem pool_feed (t : Tracker) (s : Segment) :
    (t.feed s).pool = t.pool.steps (t.pool.feedSteps s) := by
  unfold feed Pool.feedSteps
  rw [Pool.steps_cons]
  have hstep : t.pool.step (.seek s) =
      (t.pool.resolve s.flow s.flags.isOpening s.flags.isEnding s.seen).1 := rfl
  rw [hstep]
  rcases t.pool.resolve s.flow s.flags.isOpening s.flags.isEnding s.seen with ⟨q, _ | h⟩
  · rfl
  · exact q.submit_eq_steps h s

theorem pool_perform (t : Tracker) (call : TrackerCall) :
    (t.perform call).pool = t.pool.steps (t.pool.stepsOf call) := by
  cases call with
  | feed s => exact t.pool_feed s
  | resolve key isOpening isEnding now => rfl
  | submit h s => exact t.pool.submit_eq_steps h s
  | closeBy h reason => exact t.pool.closeBy_eq_steps h reason
  | flushOlder cutoff => exact t.pool.flush_eq_steps _
  | flushAll => exact t.pool.flush_eq_steps _
  | tick i elapsed => rfl

/-- A run of a tracker is a run of its pool. -/
theorem pool_run (t : Tracker) (calls : List TrackerCall) :
    (t.run calls).pool = t.pool.steps (t.pool.stepsOfAll calls) := by
  induction calls generalizing t with
  | nil => rfl
  | cons call calls ih =>
    have h : (t.run (call :: calls)).pool = ((t.perform call).run calls).pool := rfl
    rw [h, ih, Pool.stepsOfAll, Pool.steps_append, pool_perform]

/-- The pool of a tracker is consistent after every run. -/
theorem consistent_run (name : String) (config : Config) (registry : Registry)
    (calls : List TrackerCall) :
    ((Tracker.new name config registry).run calls).pool.Consistent := by
  rw [pool_run]
  exact (Pool.Consistent.new config registry).steps _

end Tracker

/-! ## Ticks between segments -/

/-- Whether a call is a tick. -/
def TrackerCall.isTick : TrackerCall → Bool
  | .tick .. => true
  | _ => false

/-- The calls feed these segments, in order, and tick sessions between them as they like. -/
def Paces (segments : List Segment) (calls : List TrackerCall) : Prop :=
  calls.filter (!·.isTick) = segments.map .feed

namespace Paces

variable {segments : List Segment} {calls : List TrackerCall}

theorem unticked (segments : List Segment) : Paces segments (segments.map .feed) := by
  refine List.filter_eq_self.mpr fun c hc => ?_
  obtain ⟨s, -, rfl⟩ := List.mem_map.mp hc
  rfl

theorem of_mem (h : Paces segments calls) {c : TrackerCall} (hc : c ∈ calls) :
    (∃ i elapsed, c = .tick i elapsed) ∨ ∃ s ∈ segments, c = .feed s := by
  rcases ht : c.isTick with _ | _
  · have hfed : c ∈ segments.map .feed := h ▸ List.mem_filter.mpr ⟨hc, by rw [ht]; rfl⟩
    obtain ⟨s, hs, rfl⟩ := List.mem_map.mp hfed
    exact Or.inr ⟨s, hs, rfl⟩
  · cases c with
    | tick i elapsed => exact Or.inl ⟨i, elapsed, rfl⟩
    | _ => exact absurd ht Bool.false_ne_true

/-- The first call is a tick, or feeds the first segment. -/
theorem cons {c : TrackerCall} (h : Paces segments (c :: calls)) :
    (∃ i elapsed, c = .tick i elapsed ∧ Paces segments calls) ∨
      ∃ s rest, segments = s :: rest ∧ c = .feed s ∧ Paces rest calls := by
  unfold Paces at h
  rcases ht : c.isTick with _ | _
  · rw [List.filter_cons_of_pos (by rw [ht]; rfl)] at h
    rcases segments with _ | ⟨s, rest⟩
    · exact absurd h (List.cons_ne_nil _ _)
    · obtain ⟨hc, hrest⟩ := List.cons.inj h
      exact Or.inr ⟨s, rest, rfl, hc, hrest⟩
  · rw [List.filter_cons_of_neg (by rw [ht]; simp)] at h
    cases c with
    | tick i elapsed => exact Or.inl ⟨i, elapsed, rfl, h⟩
    | _ => exact absurd ht Bool.false_ne_true

end Paces

end FlowWatch
