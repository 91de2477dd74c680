/-
Why sessions close.

A summary shows why its session was closed, and that is told by the step that closes it. Only a tick lets
a session time out, so where nobody ticks nobody times out; and a tick that finds its session idle always
does it.
-/
import FlowWatch.Proofs.Tracker.Connection
import FlowWatch.Proofs.Tracker.Totals

set_option autoImplicit false

namespace FlowWatch

namespace Pool

variable {p q : Pool} {i : Nat} {slot : Slot} {session : Session}

/-- The summaries that a step adds show the reason of the step. -/
theorem Move.reasons {s : PoolStep} (hm : Move p s q) :
    ∃ rs, q.records = p.records ++ rs ∧ ∀ r ∈ rs, s.reason? = some r.closeReason := by
  have hnone : q.records = p.records →
      ∃ rs, q.records = p.records ++ rs ∧ ∀ r ∈ rs, s.reason? = some r.closeReason :=
    fun heq => ⟨[], heq.trans (List.append_nil _).symm, fun r hr => absurd hr List.not_mem_nil⟩
  cases hm with
  | still => exact hnone rfl
  | seen => exact hnone rfl
  | @starved _ _ _ now => exact hnone (books_stocked (p := p.raised now)).2.2
  | @opened key _ _ now i free =>
    exact hnone ((records_openAt i free key now).trans (books_stocked (p := p.raised now)).2.2)
  | turned ho => exact hnone (records_afterTurn _ _ _ _)
  | finished ho =>
    refine ⟨_, (records_retire _ _ _ _).trans (congrArg (· ++ _) (records_afterTurn _ _ _ _)), ?_⟩
    intro r hr
    rw [List.mem_singleton.mp hr]
    rfl
  | closed ho =>
    refine ⟨_, records_retire _ _ _ _, fun r hr => ?_⟩
    rw [List.mem_singleton.mp hr]
    rfl

namespace Consistent

theorem reasons_steps (h : Consistent p) (ss : List PoolStep) :
    ∃ rs, (p.steps ss).records = p.records ++ rs ∧
      ∀ r ∈ rs, ∃ s ∈ ss, s.reason? = some r.closeReason := by
  induction ss generalizing p with
  | nil => exact ⟨[], (List.append_nil _).symm, fun r hr => absurd hr List.not_mem_nil⟩
  | cons s ss ih =>
    obtain ⟨first, hfirst, hreason⟩ := (h.move s).reasons
    obtain ⟨later, hlater, hreasons⟩ := ih (h.step s)
    refine ⟨first ++ later, ?_, fun r hr => ?_⟩
    · rw [steps_cons, hlater, hfirst, List.append_assoc]
    · rcases List.mem_append.mp hr with hnow | hthen
      · exact ⟨s, List.mem_cons_self, hreason r hnow⟩
      · obtain ⟨t, ht, heq⟩ := hreasons r hthen
        exact ⟨t, List.mem_cons_of_mem s ht, heq⟩

/-- **A tick closes a session that it finds idle.** -/
theorem tick_idle (h : Consistent p) (ho : p.occupant i = some (slot, session)) {now : Instant}
    (hidle : Session.isIdle session.lastSeen now p.config.idleTimeout = true) :
    ∃ r ∈ (p.step (.attend i (.tick (some now)))).records, r.closeReason = .timeout := by
  have hdone : (p.turnOf slot session (.tick (some now))).done = true := hidle
  have hfor : (Lifecycle.Input.tick (some now)).isFor session = true := rfl
  have hstep := h.attend_eq ho hfor
  dsimp only at hstep
  rw [hdone, if_pos rfl] at hstep
  rw [show p.step (.attend i (.tick (some now))) = _ from hstep, records_retire]
  exact ⟨_, List.mem_append_right _ List.mem_cons_self, rfl⟩

end Consistent

/-! ## Without ticks -/

/-- Segments and a flush of everything let nobody time out. -/
theorem reason?_of_mem_unticked {segments : List Segment} {step : PoolStep}
    (hstep : step ∈ p.stepsOfAll (segments.map .feed ++ [.flushAll])) :
    step.reason? ≠ some .timeout := by
  induction segments generalizing p with
  | nil =>
    have hflush : p.stepsOfAll ([].map TrackerCall.feed ++ [TrackerCall.flushAll]) =
        p.flushSteps fun _ => true := List.append_nil _
    rw [hflush] at hstep
    obtain ⟨target, -, rfl⟩ := List.mem_map.mp hstep
    simp [PoolStep.reason?]
  | cons s segments ih =>
    rcases List.mem_append.mp hstep with hnow | hlater
    · rcases mem_feedSteps hnow with rfl | ⟨i, rfl⟩ <;>
        simp [PoolStep.reason?, PoolStep.seek, Lifecycle.Input.reason]
    · exact ih hlater

end Pool

/-- **Where nobody ticks nobody times out.** -/
theorem Tracker.no_timeout_unticked (name : String) (config : Config) (registry : Registry)
    (segments : List Segment) :
    ∀ r ∈ (flushed name config registry (segments.map .feed)).pool.records,
      r.closeReason ≠ .timeout := by
  obtain ⟨rs, hrecords, hreasons⟩ := (Pool.Consistent.new config registry).reasons_steps
    ((Pool.new config registry).stepsOfAll (segments.map .feed ++ [.flushAll]))
  intro r hr hreason
  rw [pool_flushed, hrecords] at hr
  obtain ⟨step, hstep, heq⟩ := hreasons r ((List.mem_append.mp hr).resolve_left List.not_mem_nil)
  exact Pool.reason?_of_mem_unticked hstep (heq.trans (congrArg some hreason))

end FlowWatch
