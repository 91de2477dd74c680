/-
What ticks have to do with reports.

Ticks come with real time, so the same segments may be read under many schedules. A tick that finds its
session awake and nothing to purge is quiet: it leaves the marks of a report and notices that no report
is made of. A run with quiet ticks is so alike to the run without any, and two schedules of quiet ticks
give the same reports. When segments lie close together, every tick that is not late is quiet.

A tick that finds its session idle is not. It closes the session for another reason than the flush at the
end does.
-/
import FlowWatch.Http.Decoding
import FlowWatch.Proofs.Pool.Unmarked
import FlowWatch.Proofs.Tracker.Timeouts
import FlowWatch.Report

set_option autoImplicit false

namespace FlowWatch

/-- The time at which a step looks for a session. -/
def PoolStep.time? : PoolStep → Option Instant
  | .resolve _ _ _ now => some now
  | _ => none

namespace Pool

variable {p q : Pool} {segments : List Segment} {calls : List TrackerCall} {lo hi : Instant}

/-- All ticks of a run are quiet. -/
def QuietAlong (p : Pool) : List TrackerCall → Prop
  | [] => True
  | call :: calls =>
    (∀ i elapsed, call = .tick i elapsed → p.Quiet i (p.watermark.after elapsed)) ∧
      (p.steps (p.stepsOf call)).QuietAlong calls

/-! ## Runs with quiet ticks -/

namespace SameUnmarked

/-- A segment goes through the same steps. -/
theorem feedSteps_eq (h : SameUnmarked p q) (hp : p.Consistent) (s : Segment) :
    q.feedSteps s = p.feedSteps s := by
  obtain ⟨hnext, hhandle⟩ := h.resolve Slot.SameUnmarked.likeness hp s.flow s.flags.isOpening
    s.flags.isEnding s.seen
  rcases hresolved : p.resolve s.flow s.flags.isOpening s.flags.isEnding s.seen with ⟨p', found⟩
  rcases hother : q.resolve s.flow s.flags.isOpening s.flags.isEnding s.seen with ⟨q', found'⟩
  rw [hresolved, hother] at hnext hhandle
  obtain rfl : found' = found := hhandle
  rw [feedSteps_of_resolve hresolved, feedSteps_of_resolve hother]
  rcases found' with _ | handle
  · rfl
  · dsimp only [Option.elim]
    unfold submitSteps
    rw [hnext.accept_eq Slot.SameUnmarked.likeness]

theorem feed (h : SameUnmarked p q) (hp : p.Consistent) (hq : q.Consistent) (s : Segment) :
    SameUnmarked (p.steps (p.feedSteps s)) (q.steps (q.feedSteps s)) := by
  rw [h.feedSteps_eq hp]
  refine h.steps hp hq fun step hstep => ?_
  rcases mem_feedSteps hstep with rfl | ⟨i, rfl⟩ <;> rfl

theorem flushAll (h : SameUnmarked p q) (hp : p.Consistent) (hq : q.Consistent) :
    SameUnmarked p.flushAll.1 q.flushAll.1 := by
  have hsteps : ∀ r : Pool, r.flushAll.1 = r.steps (r.flushSteps fun _ => true) :=
    fun r => r.flush_eq_steps _
  have hsame : q.flushSteps (fun _ => true) = p.flushSteps fun _ => true := by
    unfold flushSteps
    rw [h.selected_eq Slot.SameUnmarked.likeness fun _ _ _ => rfl]
  rw [hsteps, hsteps, hsame]
  refine h.steps hp hq fun step hstep => ?_
  obtain ⟨target, -, rfl⟩ := List.mem_map.mp hstep
  rfl

/-- **A run with quiet ticks is alike to the run without ticks.** -/
theorem paced (h : SameUnmarked p q) (hp : p.Consistent) (hq : q.Consistent)
    (hpace : Paces segments calls) (hquiet : p.QuietAlong calls) :
    SameUnmarked (p.steps (p.stepsOfAll calls)) (q.steps (q.stepsOfAll (segments.map .feed))) := by
  -- On the calls of the run that ticks: at a tick the other run stays where it is.
  induction calls generalizing p q segments with
  | nil =>
    rw [List.map_eq_nil_iff.mp (Eq.symm hpace)]
    exact h
  | cons call calls ih =>
    obtain ⟨hnow, hlater⟩ := hquiet
    rw [steps_stepsOfAll_cons]
    rcases hpace.cons with ⟨i, elapsed, rfl, hrest⟩ | ⟨s, rest, rfl, rfl, hrest⟩
    · exact ih (h.tick hp (hnow i elapsed rfl)) (hp.steps _) hq hrest hlater
    · rw [List.map_cons, steps_stepsOfAll_cons]
      exact ih (h.feed hp hq s) (hp.steps _) (hq.steps _) hrest hlater

end SameUnmarked

/-! ## Early ticks -/

theorem watermark_resolve (key : Flow) (isOpening isEnding : Bool) (now : Instant) :
    (p.resolve key isOpening isEnding now).1.watermark = p.watermark.raise now := by
  have hstocked : (p.raised now).stocked.watermark = p.watermark.raise now := by
    unfold Pool.stocked
    split_ifs <;> rfl
  rcases hk : p.slotOf key with _ | i
  · rcases hopen : isOpening && !isEnding with _ | _
    · rw [resolve_of_refused hk hopen]
      rfl
    · rw [resolve_of_opening hk hopen]
      rcases (p.raised now).stocked.free with _ | ⟨i, free⟩
      · exact hstocked
      · refine Eq.trans ?_ hstocked
        unfold Pool.openAt
        dsimp only
        split_ifs <;> rfl
  · rw [resolve_of_mapped hk]
    rfl

/-- Looking for a session raises the watermark, and nothing else does. -/
theorem Consistent.watermark_step (h : Consistent p) (s : PoolStep) :
    (p.step s).watermark = s.time?.elim p.watermark p.watermark.raise := by
  have hmove := h.move s
  cases s with
  | resolve key isOpening isEnding now => exact watermark_resolve key isOpening isEnding now
  | attend i input =>
    generalize p.step (.attend i input) = q at hmove
    cases hmove <;> rfl
  | close i generation reason =>
    generalize p.step (.close i generation reason) = q at hmove
    cases hmove <;> rfl

/-- All sessions were seen at `lo` or later, and nothing after `hi`. -/
structure Recent (lo hi : Instant) (p : Pool) : Prop where
  consistent : p.Consistent
  sessions : Every (Lifecycle.Since lo) p
  clock : ∀ t, p.watermark.latest = some t → t ≤ clampInt64 hi

namespace Recent

theorem new (config : Config) (registry : Registry) : Recent lo hi (.new config registry) :=
  ⟨.new config registry, .new config registry, fun t ht => absurd ht (by simp [Pool.new])⟩

theorem step (h : Recent lo hi p) {s : PoolStep}
    (hkeeps : s.Keeps (Lifecycle.Since lo) p.config p.registry)
    (htime : ∀ now, s.time? = some now → now ≤ hi) : Recent lo hi (p.step s) := by
  refine ⟨h.consistent.step s, h.sessions.of_move h.consistent (h.consistent.move s) hkeeps, ?_⟩
  rw [h.consistent.watermark_step]
  intro t ht
  rcases htime? : s.time? with _ | now
  · rw [htime?] at ht
    exact h.clock t ht
  · have hnow : clampInt64 now ≤ clampInt64 hi :=
      max_le_max_left _ (min_le_min_left _ (htime now htime?))
    rw [htime?] at ht
    dsimp only [Option.elim, Watermark.raise] at ht
    rcases hlatest : p.watermark.latest with _ | latest <;> rw [hlatest] at ht
    · exact Option.some.inj ht ▸ hnow
    · exact Option.some.inj ht ▸ max_le (h.clock latest hlatest) hnow

theorem steps (h : Recent lo hi p) {ss : List PoolStep}
    (hkeeps : ∀ s ∈ ss, s.Keeps (Lifecycle.Since lo) p.config p.registry)
    (htimes : ∀ s ∈ ss, ∀ now, s.time? = some now → now ≤ hi) : Recent lo hi (p.steps ss) := by
  induction ss generalizing p with
  | nil => exact h
  | cons s ss ih =>
    obtain ⟨hconfig, hregistry, -⟩ := (h.consistent.move s).frame
    refine ih (h.step (hkeeps s List.mem_cons_self) (htimes s List.mem_cons_self)) ?_
      fun t ht => htimes t (List.mem_cons_of_mem s ht)
    intro t ht
    rw [hconfig, hregistry]
    exact hkeeps t (List.mem_cons_of_mem s ht)

theorem feed (h : Recent lo hi p) {s : Segment} (hs : lo ≤ s.seen ∧ s.seen ≤ hi) :
    Recent lo hi (p.steps (p.feedSteps s)) := by
  refine h.steps (fun step hstep => ?_) fun step hstep => ?_
  · rcases mem_feedSteps hstep with rfl | ⟨i, rfl⟩
    · exact Lifecycle.since_begin p.config hs.1 s.flow
    · exact fun l counters hl => Lifecycle.since_segment p.config p.registry counters hl hs.1
  · rcases mem_feedSteps hstep with rfl | ⟨i, rfl⟩
    · exact fun now hnow => Option.some.inj hnow ▸ hs.2
    · exact fun now hnow => absurd hnow.symm (Option.some_ne_none now)

theorem tick (h : Recent lo hi p) (i : Nat) (now : Option Instant) :
    Recent lo hi (p.step (.attend i (.tick now))) :=
  h.step (fun _ counters hl => Lifecycle.since_tick p.config p.registry counters hl now)
    fun t ht => absurd ht.symm (Option.some_ne_none t)

/-- The span of capture time that a tick sees is that of the segments and what has passed since. -/
theorem quiet (h : Recent lo hi p) {elapsed : Span}
    (hidle : clampInt64 hi + elapsed ≤ lo + p.config.idleTimeout)
    (hage : ∀ age, p.config.rttMaxAge = some age → clampInt64 hi + elapsed ≤ lo + age) (i : Nat) :
    p.Quiet i (p.watermark.after elapsed) := by
  intro slot session ho
  have hnow : ∀ t, p.watermark.after elapsed = some t → t ≤ clampInt64 hi + elapsed := by
    intro t ht
    obtain ⟨latest, hlatest, rfl⟩ := Option.map_eq_some_iff.mp ht
    exact Int.add_le_add_right (h.clock latest hlatest) elapsed
  refine (h.sessions.occupants i slot session ho).quiet p.config
    (fun t ht => (hnow t ht).trans hidle) fun t ht age hmax => (hnow t ht).trans (hage age ?_)
  exact (h.consistent.of_occupant ho).1.maxAge_eq ▸ hmax

/-- **Ticks that are not late are quiet**, whatever they are between. -/
theorem quietAlong (h : Recent lo hi p) (hpace : Paces segments calls)
    (hseen : ∀ s ∈ segments, lo ≤ s.seen ∧ s.seen ≤ hi)
    (hidle : ∀ i elapsed, .tick i elapsed ∈ calls →
      clampInt64 hi + elapsed ≤ lo + p.config.idleTimeout)
    (hage : ∀ i elapsed, .tick i elapsed ∈ calls → ∀ age, p.config.rttMaxAge = some age →
      clampInt64 hi + elapsed ≤ lo + age) : p.QuietAlong calls := by
  -- The pool stays recent at every call; the settings that the bounds speak of are those it began with.
  induction calls generalizing p segments with
  | nil => trivial
  | cons call calls ih =>
    obtain ⟨hconfig, -⟩ := h.consistent.settings_steps (p.stepsOf call)
    refine ⟨?_, ?_⟩
    · rintro i elapsed rfl
      exact h.quiet (hidle i elapsed List.mem_cons_self) (hage i elapsed List.mem_cons_self) i
    · have hnext : Recent lo hi (p.steps (p.stepsOf call)) := by
        rcases hpace.of_mem List.mem_cons_self with ⟨i, elapsed, rfl⟩ | ⟨s, hs, rfl⟩
        · exact h.tick i _
        · exact h.feed (hseen s hs)
      have hrest : ∃ rest, Paces rest calls ∧ ∀ s ∈ rest, s ∈ segments := by
        rcases hpace.cons with ⟨-, -, -, hrest⟩ | ⟨s, rest, rfl, -, hrest⟩
        · exact ⟨segments, hrest, fun _ => id⟩
        · exact ⟨rest, hrest, fun _ => List.mem_cons_of_mem s⟩
      obtain ⟨rest, hrest, hsub⟩ := hrest
      refine ih hnext hrest (fun s hs => hseen s (hsub s hs)) ?_ ?_
      · intro i elapsed hmem
        rw [hconfig]
        exact hidle i elapsed (List.mem_cons_of_mem _ hmem)
      · intro i elapsed hmem
        rw [hconfig]
        exact hage i elapsed (List.mem_cons_of_mem _ hmem)

end Recent

/-! ## Late ticks -/

/-- A segment opens the only session, which was last seen when the segment was. -/
theorem occupied_feed_new (config : Config) (registry : Registry) {s : Segment}
    (hopen : config.admits s = true) :
    let p := (Pool.new config registry).steps ((Pool.new config registry).feedSteps s)
    (∃ i slot session, p.occupant i = some (slot, session)) ∧
      Every (fun l => l.session.key = s.flow ∧ l.session.lastSeen = s.seen) p := by
  have hnew := Consistent.new config registry
  have hnone : (Pool.new config registry).slotOf s.flow = none := by
    simp [slotOf, Pool.new]
  obtain ⟨i, slot, hsteps, ho, -⟩ := hnew.feedSteps_of_opened hnone hopen
  have hself : s.flow.carries s = true := by
    unfold Config.admits at hopen
    unfold Flow.carries
    rw [Flow.connects_iff.mpr (Or.inl rfl), Bool.true_and]
    exact (Bool.and_eq_true_iff.mp (Bool.and_eq_true_iff.mp hopen).1).2
  obtain ⟨later, next, hlater, -⟩ := (hnew.step (.seek s)).feed_carried ho hself []
  refine ⟨⟨i, later, next, hsteps ▸ hlater⟩, ?_⟩
  refine Every.steps hnew (.new config registry) fun step hstep => ?_
  rcases mem_feedSteps hstep with rfl | ⟨j, rfl⟩
  · exact ⟨rfl, rfl⟩
  · rintro l counters ⟨hkey, hlast⟩
    refine ⟨(l.key_turn config registry counters _).trans hkey, ?_⟩
    change (l.turn config registry counters (.segment s)).next.session.lastSeen = s.seen
    rcases hroute : l.session.route s.flow with _ | d
    · rw [Lifecycle.turn_of_unrouted config registry counters hroute]
      exact hlast
    · rw [Lifecycle.turn_of_routed config registry counters hroute]
      exact ((l.session.times_receiveOn config registry l.cache counters d s).2.trans
        (by rw [hlast])).trans (max_self _)

/-- The clock stands at the time of the latest segment. -/
theorem latest_raise {w : Watermark} {now : Instant}
    (h : ∀ t, w.latest = some t → t ≤ clampInt64 now) :
    (w.raise now).latest = some (clampInt64 now) := by
  unfold Watermark.raise
  rcases hlatest : w.latest with _ | t
  · rfl
  · exact congrArg some (max_eq_right (h t hlatest))

/-- **A tick after a lull closes the session.** A segment of another connection, which opens nothing
itself, is enough to let the clock run on. -/
theorem timeout_after_lull (config : Config) (registry : Registry) {a b : Segment}
    (hopen : config.admits a = true) (hlost : config.admits b = false)
    (hother : b.flow.connects a.flow = false) (hle : a.seen ≤ b.seen)
    (hidle : Session.isIdle a.seen (clampInt64 b.seen) config.idleTimeout = true) :
    ∃ i, ∃ r ∈ ((Pool.new config registry).steps ((Pool.new config registry).stepsOfAll
      [.feed a, .feed b, .tick i 0])).records, r.closeReason = .timeout := by
  have hnew := Consistent.new config registry
  obtain ⟨⟨i, slot, session, ho⟩, hevery⟩ := occupied_feed_new config registry hopen
  have hrecent : Recent a.seen b.seen _ := (Recent.new config registry).feed ⟨Int.le_refl _, hle⟩
  have hconfig : ((Pool.new config registry).steps ((Pool.new config registry).feedSteps a)).config =
      config := (hnew.settings_steps _).1
  generalize hp : (Pool.new config registry).steps ((Pool.new config registry).feedSteps a) = p
    at ho hevery hrecent hconfig
  -- The stray segment finds no session and opens none, so all it does is move the clock.
  have hunmapped : p.slotOf b.flow = none := by
    refine Option.eq_none_iff_forall_ne_some.mpr fun j hj => ?_
    obtain ⟨c, t, hc, hconnects⟩ := hrecent.consistent.slotOf_iff_connects.mp hj
    rw [(hevery.occupants j c t hc).1, hother] at hconnects
    exact Bool.false_ne_true hconnects
  have hsteps := (hrecent.consistent.feedSteps_of_unmoved hunmapped (hconfig ▸ hlost)).1
  have hrefused : p.slotOf b.flow = none → p.config.admits b = false := fun _ => hconfig ▸ hlost
  obtain ⟨hslots, -⟩ := (hrecent.consistent.resolve_unmoved hrefused b.seen).1
  have ho' : (p.step (.seek b)).occupant i = some (slot, session) :=
    (occupant_of_slots (congrArg (·[i]?) hslots)).trans ho
  have hnow : (p.step (.seek b)).watermark.after 0 = some (clampInt64 b.seen) := by
    rw [hrecent.consistent.watermark_step]
    exact (congrArg (Option.map (· + 0)) (latest_raise hrecent.clock)).trans
      (congrArg some (Int.add_zero _))
  have hconfig' := (hrecent.consistent.settings_steps [.seek b]).1.trans hconfig
  have hrun : (Pool.new config registry).steps ((Pool.new config registry).stepsOfAll
      [.feed a, .feed b, .tick i 0]) =
        (p.step (.seek b)).step (.attend i (.tick ((p.step (.seek b)).watermark.after 0))) := by
    rw [steps_stepsOfAll_cons, stepsOf, hp, steps_stepsOfAll_cons, stepsOf, hsteps]
    rfl
  refine ⟨i, ?_⟩
  rw [hrun, hnow]
  refine (hrecent.consistent.step _).tick_idle ho' ?_
  rw [(hevery.occupants i slot session ho).2]
  exact hconfig' ▸ hidle

end Pool

/-! ## Reports -/

namespace Tracker

variable (name : String) (config : Config) (registry : Registry) {segments : List Segment}

theorem pool_flushed_eq_flushAll (calls : List TrackerCall) :
    (flushed name config registry calls).pool =
      ((Pool.new config registry).steps
        ((Pool.new config registry).stepsOfAll calls)).flushAll.1 := by
  have hlast : flushed name config registry calls =
      ((new name config registry).run calls).flushAll := List.foldl_concat ..
  rw [hlast]
  exact congrArg (·.flushAll.1) ((new name config registry).pool_run calls)

theorem sameUnmarked_flushed {calls : List TrackerCall} (hpace : Paces segments calls)
    (hquiet : (Pool.new config registry).QuietAlong calls) :
    Pool.SameUnmarked (flushed name config registry calls).pool
      (flushed name config registry (segments.map .feed)).pool := by
  have hnew := Pool.Consistent.new config registry
  rw [pool_flushed_eq_flushAll, pool_flushed_eq_flushAll]
  exact (Pool.SameUnmarked.paced (.new config registry) hnew hnew hpace hquiet).flushAll
    (hnew.steps _) (hnew.steps _)

/-- **Quiet ticks do not show in reports.** Under any two schedules whose ticks find no idle session and
nothing to purge, the same segments and a flush of everything give the same summaries and the same
exchanges, each in the same order, and the same counters. -/
theorem reports_under_quiet_ticks {calls calls' : List TrackerCall}
    (hpace : Paces segments calls) (hpace' : Paces segments calls')
    (hquiet : (Pool.new config registry).QuietAlong calls)
    (hquiet' : (Pool.new config registry).QuietAlong calls') :
    let p := (flushed name config registry calls).pool
    let q := (flushed name config registry calls').pool
    p.records = q.records ∧ p.exchanges = q.exchanges ∧ p.counters = q.counters := by
  have hleft := sameUnmarked_flushed name config registry hpace hquiet
  have hright := sameUnmarked_flushed name config registry hpace' hquiet'
  exact ⟨hleft.records_eq.symm.trans hright.records_eq,
    hleft.exchanges_eq.symm.trans hright.exchanges_eq,
    hleft.counters_eq.symm.trans hright.counters_eq⟩

/-- A handshake, with a tick between its segments and a tick a minute after them. -/
theorem reports_under_quiet_ticks_handshake :
    let f : Flow := ⟨.v4 ⟨10, 0, 0, 1⟩, 40000, .v4 ⟨10, 0, 0, 2⟩, 80⟩
    let opening : Segment := ⟨f, { syn := true }, 100, 0, [], 1700000000000000005⟩
    let answer : Segment :=
      ⟨f.reverse, { syn := true, ack := true }, 500, 101, [], 1700000000000007005⟩
    let calls : List TrackerCall :=
      [.feed opening, .tick 0 0, .feed answer, .tick 0 (Span.ofSeconds 60)]
    let p := (flushed "eth0" {} .standard calls).pool
    let q := (flushed "eth0" {} .standard [.feed opening, .feed answer]).pool
    Paces [opening, answer] calls ∧
      p.records = q.records ∧ p.exchanges = q.exchanges ∧ p.counters = q.counters := by
  intro f opening answer calls p q
  have hquiet : ∀ calls : List TrackerCall, Paces [opening, answer] calls →
      (∀ i elapsed, .tick i elapsed ∈ calls → elapsed ≤ Span.ofSeconds 60) →
        (Pool.new {} .standard).QuietAlong calls := by
    intro calls hpace helapsed
    have hlate : ∀ i elapsed, TrackerCall.tick i elapsed ∈ calls →
        clampInt64 answer.seen + elapsed ≤ opening.seen + Span.ofSeconds 120 :=
      fun i elapsed hmem => (Int.add_le_add_left (helapsed i elapsed hmem) _).trans (by decide)
    have hrecent : Pool.Recent opening.seen answer.seen (.new {} .standard) := .new {} .standard
    refine hrecent.quietAlong hpace (by decide) hlate fun i elapsed hmem age hage =>
      (hlate i elapsed hmem).trans ?_
    rw [← Option.some.inj hage]
    decide
  have hpaced : Paces [opening, answer] calls := rfl
  refine ⟨hpaced, reports_under_quiet_ticks "eth0" {} .standard hpaced
    (Paces.unticked [opening, answer]) (hquiet _ hpaced ?_) (hquiet _ (Paces.unticked _) ?_)⟩
  · intro i elapsed hmem
    simp only [calls, List.mem_cons, TrackerCall.tick.injEq, reduceCtorEq, List.not_mem_nil,
      false_or, or_false] at hmem
    rcases hmem with ⟨-, rfl⟩ | ⟨-, rfl⟩ <;> decide
  · intro i elapsed hmem
    simp at hmem

/-- An idle tick does show. The clock runs on with a segment that belongs to nobody, and then it matters
whether the one session ticks before the flush. -/
theorem reports_change_with_idle_tick :
    let syn : Segment := ⟨⟨.v4 ⟨10, 0, 0, 1⟩, 40000, .v4 ⟨10, 0, 0, 2⟩, 80⟩, { syn := true }, 1, 0, [],
      1700000000000000005⟩
    let stray : Segment := ⟨⟨.v4 ⟨10, 0, 0, 3⟩, 40000, .v4 ⟨10, 0, 0, 2⟩, 80⟩, { ack := true }, 1, 0,
      [], 1700000200000000005⟩
    ∃ calls, Paces [syn, stray] calls ∧
      (flushed "if0" {} .standard calls).pool.records.mergeSort Report.sessionBefore ≠
        (flushed "if0" {} .standard ([syn, stray].map .feed)).pool.records.mergeSort
          Report.sessionBefore := by
  intro syn stray
  obtain ⟨i, r, hr, hreason⟩ := Pool.timeout_after_lull {} .standard (a := syn) (b := stray)
    (by decide) (by decide) (by decide) (by decide) (by decide)
  refine ⟨[.feed syn, .feed stray, .tick i 0], rfl, fun heq => ?_⟩
  have hflushed : r ∈ (flushed "if0" {} .standard
      [.feed syn, .feed stray, .tick i 0]).pool.records := by
    obtain ⟨-, -, gone, -, hrecords⟩ := ((Pool.Consistent.new {} .standard).steps
      ((Pool.new {} .standard).stepsOfAll [.feed syn, .feed stray, .tick i 0])).flushAll_books
    rw [pool_flushed_eq_flushAll, hrecords]
    exact List.mem_append_left _ hr
  -- Sorting keeps the summaries, and only one of the runs has a session that timed out.
  have hsorted := (List.mergeSort_perm _ Report.sessionBefore).mem_iff.mpr hflushed
  rw [heq] at hsorted
  exact no_timeout_unticked "if0" {} .standard [syn, stray] r
    ((List.mergeSort_perm _ Report.sessionBefore).mem_iff.mp hsorted) hreason

end Tracker

end FlowWatch
