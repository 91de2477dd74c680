/-
Translation in time.

Two runs of a tracker get the same calls, but in the second one every segment is seen later by `d` and every
flush has its cutoff later by `d`. Call by call the second tracker is the first one, later by `d`
(`perform_delay`), so it reports the same, later by `d`: only the stamps of summaries and exchanges move,
while counters, round-trip times, durations, latencies, reasons and the results of flushes stay.

What carries the argument through a run is that all times a pool keeps are times of segments
(`Pool.Dated`). They fit a 64-bit word before and after, so nothing is clamped, and the test for idleness,
whose cutoff may lie before the first instant, still compares.
-/
import FlowWatch.Proofs.Pool.Delay
import FlowWatch.Proofs.Tracker.Ticks

set_option autoImplicit false

namespace FlowWatch

variable (d : Span)

/-! ## Calls -/

namespace TrackerCall

/-- The call, with its time later by `d`. -/
def delay : TrackerCall → TrackerCall
  | .feed s => .feed (s.delay d)
  | .resolve key isOpening isEnding now => .resolve key isOpening isEnding (now + d)
  | .submit h s => .submit h (s.delay d)
  | .flushOlder cutoff => .flushOlder (cutoff + d)
  | call => call

/-- The time that a call tells the tracker. A cutoff is only compared with. -/
def time? : TrackerCall → Option Instant
  | .feed s => some s.seen
  | .resolve _ _ _ now => some now
  | .submit _ s => some s.seen
  | _ => none

/-- The call comes without delay: where it is a tick, no time has passed since the last segment. -/
def IsPrompt : TrackerCall → Prop
  | .tick _ elapsed => elapsed = 0
  | _ => True

end TrackerCall

/-! ## The times of a pool -/

namespace Pool

/-- All times in the pool are such that `A` holds. -/
structure Dated (A : Instant → Prop) (p : Pool) : Prop where
  consistent : p.Consistent
  sessions : Every (fun l => l.session.Timed A) p
  clock : ∀ t, p.watermark.latest = some t → A t

namespace Dated

variable {A : Instant → Prop} {p : Pool}

theorem new (config : Config) (registry : Registry) : Dated A (.new config registry) :=
  ⟨.new config registry, .new config registry, fun t ht => absurd ht (by simp [Pool.new])⟩

theorem step (h : Dated A p) (hclamp : ∀ t, A t → clampInt64 t = t) {s : PoolStep}
    (hkeeps : s.Keeps (fun l => l.session.Timed A) p.config p.registry)
    (htime : ∀ now, s.time? = some now → A now) : Dated A (p.step s) := by
  refine ⟨h.consistent.step s, h.sessions.of_move h.consistent (h.consistent.move s) hkeeps, ?_⟩
  rw [h.consistent.watermark_step]
  intro t ht
  rcases htime? : s.time? with _ | now
  · rw [htime?] at ht
    exact h.clock t ht
  · have hnow := htime now htime?
    rw [htime?] at ht
    dsimp only [Option.elim, Watermark.raise] at ht
    rw [hclamp now hnow] at ht
    rcases hlatest : p.watermark.latest with _ | latest <;> rw [hlatest] at ht
    · exact Option.some.inj ht ▸ hnow
    · obtain rfl := Option.some.inj ht
      exact max_rec' A (h.clock latest hlatest) hnow

theorem steps (h : Dated A p) (hclamp : ∀ t, A t → clampInt64 t = t) {ss : List PoolStep}
    (hss : ∀ s ∈ ss, s.Keeps (fun l => l.session.Timed A) p.config p.registry ∧
      ∀ now, s.time? = some now → A now) : Dated A (p.steps ss) := by
  induction ss generalizing p with
  | nil => exact h
  | cons s ss ih =>
    obtain ⟨hkeeps, htime⟩ := hss s List.mem_cons_self
    obtain ⟨hconfig, hregistry, -⟩ := (h.consistent.move s).frame
    refine ih (h.step hclamp hkeeps htime) fun t ht => ?_
    rw [hconfig, hregistry]
    exact hss t (List.mem_cons_of_mem s ht)

/-- The steps of a call have the time of the call. -/
theorem of_mem_stepsOf {call : TrackerCall} (hcall : ∀ t, call.time? = some t → A t) {s : PoolStep}
    (hs : s ∈ p.stepsOf call) :
    s.Keeps (fun l => l.session.Timed A) p.config p.registry ∧ ∀ now, s.time? = some now → A now := by
  have hattend : ∀ i segment, A segment.seen →
      (PoolStep.attend i (.segment segment)).Keeps (fun l => l.session.Timed A) p.config p.registry ∧
        ∀ now, (PoolStep.attend i (.segment segment)).time? = some now → A now :=
    fun i segment hseen =>
      ⟨fun l counters hl => Lifecycle.timed_segment p.config p.registry counters hl hseen,
        fun now hnow => absurd hnow.symm (Option.some_ne_none now)⟩
  have hresolve : ∀ key isOpening isEnding now, A now →
      (PoolStep.resolve key isOpening isEnding now).Keeps (fun l => l.session.Timed A) p.config
          p.registry ∧
        ∀ t, (PoolStep.resolve key isOpening isEnding now).time? = some t → A t :=
    fun key _ _ now hnow =>
      ⟨Lifecycle.timed_begin p.config hnow key, fun t ht => Option.some.inj ht ▸ hnow⟩
  have hclose : ∀ i generation reason,
      (PoolStep.close i generation reason).Keeps (fun l => l.session.Timed A) p.config p.registry ∧
        ∀ t, (PoolStep.close i generation reason).time? = some t → A t :=
    fun _ _ _ => ⟨trivial, fun t ht => absurd ht.symm (Option.some_ne_none t)⟩
  cases call with
  | feed segment =>
    rcases mem_feedSteps hs with rfl | ⟨i, rfl⟩
    · exact hresolve _ _ _ _ (hcall _ rfl)
    · exact hattend i segment (hcall _ rfl)
  | resolve key isOpening isEnding now =>
    obtain rfl := List.mem_singleton.mp hs
    exact hresolve key isOpening isEnding now (hcall now rfl)
  | submit handle segment =>
    dsimp only [stepsOf, submitSteps] at hs
    rcases haccept : p.accept handle with refusal | _ <;> rw [haccept] at hs
    · exact absurd hs List.not_mem_nil
    · obtain rfl := List.mem_singleton.mp hs
      exact hattend handle.slot segment (hcall _ rfl)
  | closeBy handle reason =>
    dsimp only [stepsOf, closeSteps] at hs
    rcases haccept : p.accept handle with refusal | _ <;> rw [haccept] at hs
    · exact absurd hs List.not_mem_nil
    · obtain rfl := List.mem_singleton.mp hs
      exact hclose _ _ reason
  | flushOlder cutoff =>
    obtain ⟨target, -, rfl⟩ := List.mem_map.mp hs
    exact hclose _ _ _
  | flushAll =>
    obtain ⟨target, -, rfl⟩ := List.mem_map.mp hs
    exact hclose _ _ _
  | tick i elapsed =>
    obtain rfl := List.mem_singleton.mp hs
    exact ⟨fun l counters hl => Lifecycle.timed_tick p.config p.registry counters hl _,
      fun t ht => absurd ht.symm (Option.some_ne_none t)⟩

/-- **A call whose time is such keeps all times such.** -/
theorem call (h : Dated A p) (hclamp : ∀ t, A t → clampInt64 t = t) {call : TrackerCall}
    (hcall : ∀ t, call.time? = some t → A t) : Dated A (p.steps (p.stepsOf call)) :=
  h.steps hclamp fun _ hs => of_mem_stepsOf hcall hs

/-- At the watermark, no open session is idle in one of the runs only. -/
theorem lasting (h : Dated (Instant.Fits d) p) {i : Nat} {slot : Slot} {session : Session}
    (ho : p.occupant i = some (slot, session)) :
    session.Lasting d p.config (p.watermark.after 0) := by
  intro t ht
  obtain ⟨latest, hlatest, rfl⟩ := Option.map_eq_some_iff.mp ht
  have hlast : session.lastSeen.Fits d := (h.sessions.occupants i slot session ho).last
  have hclock : latest.Fits d := h.clock latest hlatest
  have hearliest : Instant.earliest ≤ int64Min := by decide
  have hlatest : int64Max ≤ Instant.latest := by decide
  rw [Int.add_zero, Session.isIdle_eq (hearliest.trans hlast.ge_later) (hclock.le_later.trans hlatest)
    p.config.idleTimeout_nonneg, Session.isIdle_eq (hearliest.trans hlast.ge)
    (hclock.le.trans hlatest) p.config.idleTimeout_nonneg]
  refine decide_eq_decide.mpr ?_
  rw [add_sub_right_comm]
  exact Int.add_lt_add_iff_right d

end Dated

/-! ## What has been reported -/

/-- What is picked from later notices, if later notices yield later picks. -/
theorem filterMap_journal_delay {α : Type} (p : Pool) {pick : Notice → Option α} {later : α → α}
    (h : ∀ n : Notice, pick (n.delay d) = (pick n).map later) :
    (p.delay d).journal.toList.filterMap pick = (p.journal.toList.filterMap pick).map later := by
  have hjournal : (p.delay d).journal.toList = p.journal.toList.map (·.delay d) :=
    Array.toList_map
  rw [hjournal, List.filterMap_map, List.map_filterMap]
  exact List.filterMap_congr fun n _ => h n

theorem records_delay (p : Pool) : (p.delay d).records = p.records.map (·.delay d) :=
  p.filterMap_journal_delay d (Notice.summary?_delay d)

theorem exchanges_delay (p : Pool) : (p.delay d).exchanges = p.exchanges.map (·.delay d) :=
  p.filterMap_journal_delay d (Notice.exchange?_delay d)

end Pool

/-! ## Runs -/

namespace Tracker

/-- The tracker, with its pool later by `d`. -/
def delay (t : Tracker) : Tracker := { t with pool := t.pool.delay d }

/-- How many sessions a call has closed, if it is a flush. -/
def flushed? (t : Tracker) : TrackerCall → Option Nat
  | .flushOlder cutoff => some (t.pool.flushOlder cutoff).2
  | .flushAll => some t.pool.flushAll.2
  | _ => none

/-- The results of the flushes of a run, in order. -/
def flushResults (t : Tracker) : List TrackerCall → List Nat
  | [] => []
  | call :: calls => (t.flushed? call).toList ++ (t.perform call).flushResults calls

variable {t : Tracker} {call : TrackerCall}

theorem feed_delay (h : t.pool.Dated (Instant.Fits d)) (hr : t.pool.registry.FollowsClock)
    {s : Segment} (hs : s.seen.Fits d) : (t.delay d).feed (s.delay d) = (t.feed s).delay d := by
  have hresolve : (t.delay d).pool.resolve (s.delay d).flow (s.delay d).flags.isOpening
      (s.delay d).flags.isEnding (s.delay d).seen =
        ((t.pool.resolve s.flow s.flags.isOpening s.flags.isEnding s.seen).1.delay d,
          (t.pool.resolve s.flow s.flags.isOpening s.flags.isEnding s.seen).2) :=
    t.pool.resolve_delay d hs s.flow s.flags.isOpening s.flags.isEnding
  have hregistry : (t.pool.resolve s.flow s.flags.isOpening s.flags.isEnding s.seen).1.registry =
      t.pool.registry := (h.consistent.move (.seek s)).frame.2.1
  unfold feed
  rw [hresolve]
  rcases hq : t.pool.resolve s.flow s.flags.isOpening s.flags.isEnding s.seen with ⟨q, _ | handle⟩
  · rfl
  · rw [hq] at hregistry
    dsimp only
    rw [q.submit_delay d handle (hregistry ▸ hr) hs]
    rfl

/-- **A call and the later call lead from a tracker and the later tracker to such trackers again.** -/
theorem perform_delay (h : t.pool.Dated (Instant.Fits d)) (hr : t.pool.registry.FollowsClock)
    (hfits : ∀ now, call.time? = some now → now.Fits d) (hprompt : call.IsPrompt) :
    (t.delay d).perform (call.delay d) = (t.perform call).delay d := by
  have hpool : ∀ {p q : Pool}, p = q.delay d →
      ({ t.delay d with pool := p } : Tracker) = ({ t with pool := q } : Tracker).delay d := by
    rintro p q rfl
    rfl
  cases call with
  | feed s => exact feed_delay d h hr (hfits s.seen rfl)
  | resolve key isOpening isEnding now =>
    exact hpool (congrArg Prod.fst (t.pool.resolve_delay d (hfits now rfl) key isOpening isEnding))
  | submit handle s =>
    exact hpool (congrArg Prod.fst (t.pool.submit_delay d handle hr (hfits s.seen rfl)))
  | closeBy handle reason =>
    exact hpool (congrArg Prod.fst (t.pool.closeBy_delay d handle reason))
  | flushOlder cutoff => exact hpool (congrArg Prod.fst (t.pool.flushOlder_delay d cutoff))
  | flushAll => exact hpool (congrArg Prod.fst (t.pool.flushAll_delay d))
  | tick i elapsed =>
    obtain rfl : elapsed = 0 := hprompt
    exact hpool (t.pool.tickAfter_delay d i fun _ _ ho => h.lasting d ho)

theorem flushed?_delay (call : TrackerCall) :
    (t.delay d).flushed? (call.delay d) = t.flushed? call := by
  cases call with
  | flushOlder cutoff => exact congrArg (some ·.2) (t.pool.flushOlder_delay d cutoff)
  | flushAll => exact congrArg (some ·.2) (t.pool.flushAll_delay d)
  | _ => rfl

/-- **A run and the later run.** -/
theorem run_delay (h : t.pool.Dated (Instant.Fits d)) (hr : t.pool.registry.FollowsClock)
    {calls : List TrackerCall} (hfits : ∀ call ∈ calls, ∀ now, call.time? = some now → now.Fits d)
    (hprompt : ∀ call ∈ calls, call.IsPrompt) :
    (t.delay d).run (calls.map (·.delay d)) = (t.run calls).delay d ∧
      (t.delay d).flushResults (calls.map (·.delay d)) = t.flushResults calls := by
  induction calls generalizing t with
  | nil => exact ⟨rfl, rfl⟩
  | cons call calls ih =>
    have hcall := hfits call List.mem_cons_self
    have hstep := perform_delay d h hr hcall (hprompt call List.mem_cons_self)
    have hnext : (t.perform call).pool.Dated (Instant.Fits d) := by
      rw [pool_perform]
      exact h.call (fun _ => Instant.Fits.clamp_eq) hcall
    have hregistry : (t.perform call).pool.registry = t.pool.registry := by
      rw [pool_perform]
      exact (h.consistent.settings_steps _).2
    obtain ⟨hrun, hresults⟩ := ih hnext (hregistry ▸ hr)
      (fun c hc => hfits c (List.mem_cons_of_mem call hc))
      fun c hc => hprompt c (List.mem_cons_of_mem call hc)
    refine ⟨?_, ?_⟩
    · show ((t.delay d).perform (call.delay d)).run (calls.map (·.delay d)) = _
      rw [hstep]
      exact hrun
    · show ((t.delay d).flushed? (call.delay d)).toList ++
        ((t.delay d).perform (call.delay d)).flushResults (calls.map (·.delay d)) = _
      rw [hstep, hresults, flushed?_delay]
      rfl

/-- **Translation in time.** When all segments are seen later by `d` (earlier, where `d` is negative), and
the cutoffs of all flushes are later by as much, a run reports the same: every summary and every exchange in
the same order, with nothing but the stamps later by `d`, the same counters of the interface and figures of
the pool, the same results of flushes, and the same open sessions, which were seen later by `d`. The times
of segments must fit a signed 64-bit word before and after, ticks come at the watermark, and decoders must
not make anything else of a time than to pass it on. -/
theorem time_translation (name : String) (config : Config) {registry : Registry}
    (hregistry : registry.FollowsClock) {calls : List TrackerCall}
    (hfits : ∀ call ∈ calls, ∀ now, call.time? = some now → now.Fits d)
    (hprompt : ∀ call ∈ calls, call.IsPrompt) :
    let start := Tracker.new name config registry
    let p := (start.run calls).pool
    let q := (start.run (calls.map (·.delay d))).pool
    q.journal = p.journal.map (·.delay d) ∧
      q.records = p.records.map (·.delay d) ∧ q.exchanges = p.exchanges.map (·.delay d) ∧
      q.counters = p.counters ∧ q.figures = p.figures ∧
      q.openSessions = p.openSessions.map (·.delay d) ∧
      start.flushResults (calls.map (·.delay d)) = start.flushResults calls := by
  have hstart : (Tracker.new name config registry).delay d = .new name config registry :=
    congrArg (Tracker.mk name) (Pool.new_delay d config registry)
  obtain ⟨hrun, hresults⟩ := run_delay d (t := .new name config registry) (.new config registry)
    hregistry hfits hprompt
  rw [hstart] at hrun hresults
  intro start p q
  have hpool : q = p.delay d := congrArg Tracker.pool hrun
  rw [hpool]
  exact ⟨rfl, p.records_delay d, p.exchanges_delay d, rfl, p.figures_delay d, p.openSessions_delay d,
    hresults⟩

/-- A handshake, a tick and two flushes, moved from one end of the 64-bit range to the other. The idle
timeout is the longest there is, so that the tick compares with a time before the first instant. -/
theorem time_translation_end_to_end :
    let f : Flow := ⟨.v4 ⟨10, 0, 0, 1⟩, 40000, .v4 ⟨10, 0, 0, 2⟩, 80⟩
    let opening : Segment := ⟨f, { syn := true }, 100, 0, [], -9223372036854775808⟩
    let answer : Segment :=
      ⟨f.reverse, { syn := true, ack := true }, 500, 101, [], -9223372036854768808⟩
    let calls : List TrackerCall := [.feed opening, .feed answer, .tick 0 0,
      .flushOlder (-9223372036854768808), .flushAll]
    let config : Config := { idleTimeoutSecs := 9223372036854775807 }
    let d : Span := 18446744073709544615
    let start := Tracker.new "eth0" config .standard
    let p := (start.run calls).pool
    let q := (start.run (calls.map (·.delay d))).pool
    config.validate = .ok () ∧ Registry.standard.FollowsClock ∧
      (∀ call ∈ calls, ∀ now, call.time? = some now → now.Fits d) ∧
      (∀ call ∈ calls, call.IsPrompt) ∧
      q.journal = p.journal.map (·.delay d) ∧
      q.records = p.records.map (·.delay d) ∧ q.exchanges = p.exchanges.map (·.delay d) ∧
      q.counters = p.counters ∧ q.figures = p.figures ∧
      q.openSessions = p.openSessions.map (·.delay d) ∧
      start.flushResults (calls.map (·.delay d)) = start.flushResults calls := by
  intro f opening answer calls config d start p q
  have hfits : ∀ call ∈ calls, ∀ now, call.time? = some now → now.Fits d := by
    have hopening : opening.seen.Fits d := ⟨by decide, by decide, by decide, by decide⟩
    have hanswer : answer.seen.Fits d := ⟨by decide, by decide, by decide, by decide⟩
    simp only [calls, List.forall_mem_cons, TrackerCall.time?, Option.some.injEq, forall_eq',
      reduceCtorEq, false_imp_iff, implies_true, List.not_mem_nil, and_true]
    exact ⟨hopening, hanswer⟩
  have hprompt : ∀ call ∈ calls, call.IsPrompt := by
    simp [calls, TrackerCall.IsPrompt]
  refine ⟨by decide, Registry.standard_followsClock, hfits, hprompt, ?_⟩
  exact time_translation d "eth0" config Registry.standard_followsClock hfits hprompt

end Tracker

end FlowWatch
