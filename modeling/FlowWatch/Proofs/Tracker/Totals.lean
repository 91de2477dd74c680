/-
What a flushed tracker has counted.

Segments are fed, sessions tick between them as they like, and a flush comes last. Then every session has
its summary, and what the interface and the journal hold can be told from the summaries alone. Ticks bring
nothing, so a schedule of ticks has no say in how much there is to tell, whatever it does to the sessions.
-/
import FlowWatch.Proofs.Pool.Figures
import FlowWatch.Proofs.Tracker.Summaries

set_option autoImplicit false

namespace FlowWatch

/-- The sessions between two endpoints among some records. -/
def SessionRecord.between (client server : String) (rs : List SessionRecord) :
    List SessionRecord :=
  rs.filter fun r => r.client = client ∧ r.server = server

namespace Paces

variable {segments : List Segment} {calls : List TrackerCall}

/-- **The steps of a paced run.** A segment looks for its session or is handed to it, a session ticks, and
in the end sessions are closed. -/
theorem of_mem_steps (h : Paces segments calls) (p : Pool) {step : PoolStep}
    (hstep : step ∈ p.stepsOfAll (calls ++ [TrackerCall.flushAll])) :
    (∃ s ∈ segments, step = .seek s ∨ ∃ i, step = .attend i (.segment s)) ∨
      (∃ i now, step = .attend i (.tick now)) ∨ ∃ i g, step = .close i g .flush := by
  induction calls generalizing segments p with
  | nil =>
    have hflush : p.stepsOfAll ([] ++ [TrackerCall.flushAll]) = p.flushSteps fun _ => true :=
      List.append_nil _
    rw [hflush] at hstep
    obtain ⟨target, -, rfl⟩ := List.mem_map.mp hstep
    exact .inr (.inr ⟨_, _, rfl⟩)
  | cons c calls ih =>
    rcases List.mem_append.mp hstep with hnow | hlater
    · rcases h.of_mem List.mem_cons_self with ⟨i, elapsed, rfl⟩ | ⟨s, hs, rfl⟩
      · exact .inr (.inl ⟨i, _, List.mem_singleton.mp hnow⟩)
      · exact .inl ⟨s, hs, Pool.mem_feedSteps hnow⟩
    · rcases h.cons with ⟨i, elapsed, -, hrest⟩ | ⟨s, rest, rfl, -, hrest⟩
      · exact ih hrest _ hlater
      · refine (ih hrest _ hlater).imp_left ?_
        rintro ⟨t, ht, hcase⟩
        exact ⟨t, List.mem_cons_of_mem s ht, hcase⟩

/-- What holds of the times of all segments holds of the times of all steps. -/
theorem keeps_timed {A : Instant → Prop} (h : Paces segments calls)
    (hseen : ∀ s ∈ segments, A s.seen) (config : Config) (registry : Registry) (p : Pool) :
    ∀ step ∈ p.stepsOfAll (calls ++ [TrackerCall.flushAll]),
      step.Keeps (fun l => l.session.Timed A) config registry := by
  intro step hstep
  rcases h.of_mem_steps p hstep with
    ⟨s, hs, rfl | ⟨i, rfl⟩⟩ | ⟨i, now, rfl⟩ | ⟨i, g, rfl⟩
  · exact Lifecycle.timed_begin config (hseen s hs) s.flow
  · exact fun l counters hl => Lifecycle.timed_segment config registry counters hl (hseen s hs)
  · exact fun l counters hl => Lifecycle.timed_tick config registry counters hl now
  · trivial

end Paces

/-! ## A flushed tracker -/

/-- The tracker that has taken some calls and then a flush of everything. -/
def Tracker.flushed (name : String) (config : Config) (registry : Registry)
    (calls : List TrackerCall) : Tracker :=
  (new name config registry).run (calls ++ [TrackerCall.flushAll])

namespace Tracker

variable (name : String) (config : Config) (registry : Registry) {segments : List Segment}
  {calls : List TrackerCall}

theorem pool_flushed (calls : List TrackerCall) :
    (flushed name config registry calls).pool = (Pool.new config registry).steps
      ((Pool.new config registry).stepsOfAll (calls ++ [TrackerCall.flushAll])) :=
  (new name config registry).pool_run _

theorem live_flushed (calls : List TrackerCall) :
    (flushed name config registry calls).pool.live = 0 := by
  have hlast : flushed name config registry calls =
      ((new name config registry).run calls).flushAll := List.foldl_concat ..
  rw [hlast]
  exact (consistent_run name config registry calls).flushAll_books.1

/-- Every summary is that of a session whose times come from the segments. -/
theorem timed_flushed {A : Instant → Prop} (h : Paces segments calls)
    (hseen : ∀ s ∈ segments, A s.seen) :
    ∀ r ∈ (flushed name config registry calls).pool.records,
      ∃ s : Session, ∃ reason, s.Timed A ∧ r = s.summary reason := by
  have hevery : Pool.Every (fun l => l.session.Timed A)
      (flushed name config registry calls).pool := by
    rw [pool_flushed]
    exact Pool.Every.steps (.new config registry) (.new config registry)
      (h.keeps_timed hseen config registry _)
  intro r hr
  obtain ⟨l, reason, hl, hr⟩ := hevery.records r hr
  exact ⟨l.session, reason, hl, hr⟩

end Tracker

end FlowWatch
