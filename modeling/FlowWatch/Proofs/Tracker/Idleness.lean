/-
Which sessions a tick closes.

A tick compares the last activity of its session with the newest time the pool has seen, on any flow. The
session keeps its time as it is, and the pool keeps the newest one in a signed 64-bit word. So a tick finds
out exactly whether the timeout has passed between the one and the other as long as the newest time fits
the word. If all times are before 1677, the word shows a later time than any of them, and a tick closes
sessions that were active just before; after 2262 it shows an earlier one.
-/
import FlowWatch.Proofs.Tracker.Flushes
import FlowWatch.Proofs.Tracker.Ticks

set_option autoImplicit false

namespace FlowWatch

/-! ## The newest time -/

/-- The capture time that a call lets the pool see. -/
def TrackerCall.observed? : TrackerCall → Option Instant
  | .feed s => some s.seen
  | .resolve _ _ _ now => some now
  | _ => none

/-- The newest capture time that the pool sees in a run, on any flow. -/
def newestSeen (calls : List TrackerCall) : Option Instant :=
  (calls.filterMap TrackerCall.observed?).max?

/-- A watermark that was raised to some times stands at the greatest of them, clamped. -/
theorem Watermark.latest_foldl_raise (times : List Instant) :
    (times.foldl raise {}).latest = times.max?.map clampInt64 := by
  have hraised : ∀ (later : List Instant) (first : Instant),
      (later.foldl raise ⟨some (clampInt64 first)⟩).latest =
        some (clampInt64 (later.foldl max first)) := by
    intro later
    induction later with
    | nil => exact fun first => rfl
    | cons t later ih =>
      intro first
      have hstep : raise ⟨some (clampInt64 first)⟩ t = ⟨some (clampInt64 (max first t))⟩ := by
        rw [clampInt64_max]
        rfl
      rw [List.foldl_cons, hstep]
      exact ih (max first t)
  cases times with
  | nil => rfl
  | cons first later => exact hraised later first

namespace Pool

/-- Between `p` and `q` the session in slot `i` timed out: it is gone, and it has one summary. -/
structure TimedOut (p q : Pool) (i : Nat) (session : Session) : Prop where
  occupant_eq : ∀ j, q.occupant j = if i = j then none else p.occupant j
  records_eq : q.records = p.records ++ [session.summary .timeout]
  counters_eq : q.counters = p.counters

/-- Between `p` and `q` the session in slot `i` told of its traffic. It is still open, and nobody has a
summary. -/
structure StayedOpen (p q : Pool) (i : Nat) (slot : Slot) (session : Session) : Prop where
  /-- The same session of the same generation, in all but the marks of the last report. -/
  stays : ∃ later next, q.occupant i = some (later, next) ∧ later.generation = slot.generation ∧
    next.unmarked = session.unmarked ∧ ∀ d, (next.side d).total = (session.side d).total
  others_eq : ∀ j ≠ i, q.occupant j = p.occupant j
  records_eq : q.records = p.records
  counters_eq : q.counters = p.counters

variable {p : Pool} {i : Nat} {slot : Slot} {session : Session}

/-! ## What a pool has seen -/

theorem Consistent.watermark_steps (h : p.Consistent) (ss : List PoolStep) :
    (p.steps ss).watermark = (ss.filterMap PoolStep.time?).foldl Watermark.raise p.watermark := by
  induction ss generalizing p with
  | nil => rfl
  | cons s ss ih =>
    rw [steps_cons, ih (h.step s), h.watermark_step]
    rcases htime : s.time? with _ | now
    · rw [List.filterMap_cons_none htime]
      rfl
    · rw [List.filterMap_cons_some htime]
      rfl

/-- The pool looks at the time of a call once, when it looks for the session. -/
theorem times_stepsOf (p : Pool) (call : TrackerCall) :
    (p.stepsOf call).filterMap PoolStep.time? = call.observed?.toList := by
  have hsubmit : ∀ (q : Pool) (handle : Handle) (s : Segment),
      (q.submitSteps handle s).filterMap PoolStep.time? = [] := by
    intro q handle s
    unfold submitSteps
    rcases q.accept handle with e | _ <;> rfl
  have hflush : ∀ select : Slot → Bool, (p.flushSteps select).filterMap PoolStep.time? = [] := by
    intro select
    refine List.filterMap_eq_nil_iff.mpr fun s hs => ?_
    obtain ⟨target, -, rfl⟩ := List.mem_map.mp hs
    rfl
  cases call with
  | feed s =>
    rcases hresolve : p.resolve s.flow s.flags.isOpening s.flags.isEnding s.seen with ⟨q, _ | handle⟩
    · show (p.feedSteps s).filterMap PoolStep.time? = [s.seen]
      rw [feedSteps_of_resolve hresolve]
      rfl
    · show (p.feedSteps s).filterMap PoolStep.time? = [s.seen]
      rw [feedSteps_of_resolve hresolve]
      exact congrArg (s.seen :: ·) (hsubmit q handle s)
  | resolve key isOpening isEnding now => rfl
  | submit handle s => exact hsubmit p handle s
  | closeBy handle reason =>
    unfold stepsOf closeSteps
    dsimp only
    rcases p.accept handle with e | _ <;> rfl
  | flushOlder cutoff => exact hflush _
  | flushAll => exact hflush _
  | tick j elapsed => rfl

theorem times_stepsOfAll (p : Pool) (calls : List TrackerCall) :
    (p.stepsOfAll calls).filterMap PoolStep.time? = calls.filterMap TrackerCall.observed? := by
  induction calls generalizing p with
  | nil => rfl
  | cons call calls ih =>
    rw [stepsOfAll, List.filterMap_append, times_stepsOf, ih]
    rcases hobserved : call.observed? with _ | t
    · rw [List.filterMap_cons_none hobserved]
      rfl
    · rw [List.filterMap_cons_some hobserved]
      rfl

/-- **The watermark after a run** is the newest time, clamped. -/
theorem latest_stepsOfAll (config : Config) (registry : Registry) (calls : List TrackerCall) :
    ((Pool.new config registry).steps
      ((Pool.new config registry).stepsOfAll calls)).watermark.latest =
        (newestSeen calls).map clampInt64 := by
  rw [(Consistent.new config registry).watermark_steps, times_stepsOfAll]
  exact Watermark.latest_foldl_raise _

/-- The pool sees the time at which a session is opened. -/
theorem time_of_openingOf {g : Nat} {ss : List PoolStep} {key : Flow} {opened : Instant}
    (h : p.openingOf g ss = some (key, opened)) : opened ∈ ss.filterMap PoolStep.time? := by
  induction ss generalizing p with
  | nil => exact absurd h (by simp [openingOf])
  | cons s ss ih =>
    rw [List.mem_filterMap]
    have hlater : ∀ q : Pool, q.openingOf g ss = some (key, opened) →
        ∃ t ∈ s :: ss, t.time? = some opened := by
      intro q hq
      obtain ⟨t, ht, htime⟩ := List.mem_filterMap.mp (ih hq)
      exact ⟨t, List.mem_cons_of_mem s ht, htime⟩
    cases s with
    | resolve key' isOpening isEnding now =>
      rw [openingOf] at h
      split_ifs at h
      · obtain ⟨-, rfl⟩ := Prod.mk.inj (Option.some.inj h)
        exact ⟨_, List.mem_cons_self, rfl⟩
      · exact hlater _ h
    | attend => exact hlater _ h
    | close => exact hlater _ h

/-- Looking for a session without opening one shows in the watermark alone. -/
theorem Consistent.occupant_look (h : p.Consistent) (key : Flow) (now : Instant) (j : Nat) :
    (p.step (.resolve key false false now)).occupant j = p.occupant j := by
  have hslots : (p.step (.resolve key false false now)).slots = p.slots :=
    (h.resolve_unmoved (fun _ => rfl) now).1.1
  exact occupant_of_slots (congrArg (·[j]?) hslots)

/-! ## One tick -/

/-- **A tick closes its session, or leaves it as it is.** -/
theorem Consistent.tick_outcome (h : p.Consistent) (ho : p.occupant i = some (slot, session))
    (now : Option Instant) :
    if (p.turnOf slot session (.tick now)).done then
      p.TimedOut (p.step (.attend i (.tick now))) i session
    else p.StayedOpen (p.step (.attend i (.tick now))) i slot session := by
  obtain ⟨hmarks, hcounters⟩ :=
    Lifecycle.session_turn_tick p.config p.registry p.counters (l := ⟨session, slot.cache⟩) now
  have hsummary : (p.turnOf slot session (.tick now)).next.session.summary .timeout =
      session.summary .timeout := by
    rw [← Session.summary_unmarked, ← session.summary_unmarked]
    exact congrArg (·.summary .timeout) hmarks
  have htotal : ∀ d, ((p.turnOf slot session (.tick now)).next.session.side d).total =
      (session.side d).total := by
    intro d
    rw [← Session.total_unmarked, ← session.total_unmarked]
    exact congrArg (fun s : Session => (s.side d).total) hmarks
  have hmeant : (Lifecycle.Input.tick now).isFor session = true := rfl
  have hstep : p.step (.attend i (.tick now)) = _ := h.attend_eq ho hmeant
  dsimp only at hstep
  split_ifs at hstep ⊢
  · rw [hstep]
    refine ⟨fun j => occupant_retire_afterTurn ho _ _ _ j, ?_, hcounters⟩
    rw [records_retire, records_afterTurn]
    exact congrArg (p.records ++ [·]) hsummary
  · rw [hstep]
    refine ⟨⟨_, _, occupant_afterTurn_self ho _ _, rfl, hmarks, htotal⟩, fun j hj => ?_,
      records_afterTurn i slot session _, hcounters⟩
    rw [occupant_afterTurn ho, if_neg (Ne.symm hj)]

/-- **A tick is exact**: it closes its session if more than the timeout has passed since the last activity. -/
theorem Consistent.tick_exact (h : p.Consistent) (ho : p.occupant i = some (slot, session))
    (hconfig : p.config.validate = .ok ()) (hearliest : Instant.earliest ≤ session.lastSeen)
    {now : Instant} (hlatest : now ≤ Instant.latest) :
    if Span.ofSeconds p.config.idleTimeoutSecs.toNat < now - session.lastSeen then
      p.TimedOut (p.step (.attend i (.tick (some now)))) i session
    else p.StayedOpen (p.step (.attend i (.tick (some now)))) i slot session := by
  have hdone : (p.turnOf slot session (.tick (some now))).done =
      decide (Span.ofSeconds p.config.idleTimeoutSecs.toNat < now - session.lastSeen) :=
    Lifecycle.done_turn_tick p.config p.registry p.counters (l := ⟨session, slot.cache⟩) hconfig
      hearliest hlatest
  have houtcome := h.tick_outcome ho (some now)
  rw [hdone] at houtcome
  simpa only [decide_eq_true_eq] using houtcome

end Pool

/-! ## Ticks of a tracker -/

namespace Tracker

theorem config_run (name : String) (config : Config) (registry : Registry)
    (calls : List TrackerCall) :
    ((Tracker.new name config registry).run calls).pool.config = config := by
  rw [pool_run]
  exact ((Pool.Consistent.new config registry).settings_steps _).1

/-- The time that a tick is told after a run, if no wall time has elapsed. -/
theorem now_run (name : String) (config : Config) (registry : Registry) (calls : List TrackerCall) :
    ((Tracker.new name config registry).run calls).pool.watermark.after 0 =
      (newestSeen calls).map clampInt64 := by
  have hlast : ((Tracker.new name config registry).run calls).pool =
      (Pool.new config registry).steps ((Pool.new config registry).stepsOfAll calls) :=
    (Tracker.new name config registry).pool_run calls
  unfold Watermark.after
  rw [hlast, Pool.latest_stepsOfAll]
  rcases newestSeen calls with _ | newest
  · rfl
  · exact congrArg some (Int.add_zero _)

theorem pool_tick {t : Tracker} {now : Option Instant} (hnow : t.pool.watermark.after 0 = now)
    (i : Nat) : (t.perform (.tick i 0)).pool = t.pool.step (.attend i (.tick now)) := by
  rw [pool_perform, ← hnow]
  rfl

end Tracker

/-- **Ticks and timeouts.** Let a run of a tracker with an accepted configuration see only representable
times. A tick of an open session at the watermark closes the session as timed out if more than the timeout
lies between the session's last activity and the newest time of the run, clamped to a 64-bit word. Else the
session stays open, with the same totals. -/
theorem Tracker.timeout_by_last_activity (name : String) {config : Config} (registry : Registry)
    {calls : List TrackerCall} (hconfig : config.validate = .ok ())
    (hseen : ∀ call ∈ calls, ∀ t, call.observed? = some t → Instant.isRepresentable t = true) :
    let start := Pool.new config registry
    let ss := start.stepsOfAll calls
    let t := (Tracker.new name config registry).run calls
    t.pool = start.steps ss ∧
      ∀ i slot session, t.pool.occupant i = some (slot, session) →
        ∃ key opened newest, start.openingOf slot.generation ss = some (key, opened) ∧
          newestSeen calls = some newest ∧
          let active := Lifecycle.lastActivity opened (start.inputsOf slot.generation ss)
          let ticked := (t.perform (.tick i 0)).pool
          if Span.ofSeconds config.idleTimeoutSecs.toNat < clampInt64 newest - active then
            t.pool.TimedOut ticked i session
          else t.pool.StayedOpen ticked i slot session := by
  intro start ss t
  have hlast : t.pool = start.steps ss := (Tracker.new name config registry).pool_run calls
  have hconsistent : t.pool.Consistent := consistent_run name config registry calls
  refine ⟨hlast, fun i slot session ho => ?_⟩
  obtain ⟨key, opened, hopening, hactive, -⟩ := Pool.lastSeen_of_occupant (hlast ▸ ho)
  -- The opening was seen, so there is a newest time, and the last activity is not before it.
  have hopened : opened ∈ calls.filterMap TrackerCall.observed? := by
    rw [← start.times_stepsOfAll]
    exact Pool.time_of_openingOf hopening
  obtain ⟨call, hcall, htime⟩ := List.mem_filterMap.mp hopened
  have hearliest : Instant.earliest ≤ session.lastSeen := by
    have hrange := (Bool.and_eq_true_iff.mp (hseen call hcall opened htime)).1
    rw [hactive]
    exact Int.le_trans (of_decide_eq_true hrange) (Lifecycle.le_lastActivity _ _)
  have hsome : (newestSeen calls).isSome := by
    unfold newestSeen
    rw [Option.isSome_iff_ne_none, ne_eq, List.max?_eq_none_iff]
    exact List.ne_nil_of_mem hopened
  obtain ⟨newest, hnewest⟩ := Option.isSome_iff_exists.mp hsome
  have hnow : t.pool.watermark.after 0 = some (clampInt64 newest) := by
    rw [show t.pool.watermark.after 0 = _ from now_run name config registry calls, hnewest]
    rfl
  have hlatest : clampInt64 newest ≤ Instant.latest :=
    Int.le_trans (clampInt64_le newest) (by decide)
  have hsettings : t.pool.config = config := config_run name config registry calls
  have houtcome := hconsistent.tick_exact ho (hsettings ▸ hconfig) hearliest hlatest
  rw [hsettings, hactive, ← pool_tick hnow i] at houtcome
  exact ⟨key, opened, newest, hopening, hnewest, houtcome⟩

/-- A session opened at the time 0 that nobody hears of again, while the clock goes on with looks at the
connection. With the default timeout it is open after two minutes, and times out a nanosecond later. -/
theorem Tracker.timeout_after_two_minutes :
    let f : Flow := ⟨.v4 ⟨10, 0, 0, 1⟩, 40000, .v4 ⟨10, 0, 0, 2⟩, 80⟩
    let opening : Segment := ⟨f, { syn := true }, 100, 0, [], 0⟩
    let t := fun now => (Tracker.new "eth0" {} .standard).run
      [.feed opening, .resolve f false false now]
    ∃ i slot session,
      (t 120000000000).pool.StayedOpen ((t 120000000000).perform (.tick i 0)).pool i slot session ∧
        (t 120000000001).pool.TimedOut ((t 120000000001).perform (.tick i 0)).pool i session := by
  intro f opening t
  obtain ⟨hinputs, hopening, i, slot, session, ho, hg, -⟩ :=
    Pool.occupant_after_opening {} .standard (s := opening) (by decide)
  have hticked : ∀ now, Instant.isRepresentable now = true →
      let ticked := ((t now).perform (.tick i 0)).pool
      if Span.ofSeconds 120 < clampInt64 (max 0 now) - 0 then (t now).pool.TimedOut ticked i session
      else (t now).pool.StayedOpen ticked i slot session := by
    intro now hnow
    have hseen : ∀ call ∈ [TrackerCall.feed opening, .resolve f false false now],
        ∀ t, call.observed? = some t → Instant.isRepresentable t = true := by
      simp only [List.forall_mem_cons, TrackerCall.observed?, Option.some.injEq, forall_eq',
        List.not_mem_nil, false_imp_iff, implies_true, and_true]
      exact ⟨by decide, hnow⟩
    have hconfig : ({} : Config).validate = .ok () := by decide
    obtain ⟨hlast, hall⟩ := Tracker.timeout_by_last_activity "eth0" .standard hconfig hseen
    -- The look comes after the steps of the segment, and is nothing to the session.
    have hsteps : (Pool.new {} .standard).stepsOfAll [.feed opening, .resolve f false false now] =
        (Pool.new {} .standard).stepsOfAll [.feed opening] ++ [.resolve f false false now] :=
      (Pool.new {} .standard).stepsOfAll_append [.feed opening] [.resolve f false false now]
    have hopen : (t now).pool.occupant i = some (slot, session) := by
      rw [hlast, hsteps, Pool.steps_append]
      exact (((Pool.Consistent.new {} .standard).steps _).occupant_look f now i).trans ho
    obtain ⟨key, opened, newest, hfirst, hnewest, houtcome⟩ := hall i slot session hopen
    obtain rfl : max 0 now = newest := Option.some.inj hnewest
    rw [hg, hsteps] at hfirst houtcome
    have hsame := hfirst.symm.trans (Pool.openingOf_append hopening _)
    obtain ⟨-, rfl⟩ := Prod.mk.inj (Option.some.inj hsame)
    rw [Pool.inputsOf_append, show (Pool.new {} .standard).inputsOf 1 _ = [.segment opening] from
      hinputs] at houtcome
    exact houtcome
  refine ⟨i, slot, session, ?_, ?_⟩
  · exact (if_neg (by decide)).mp (hticked 120000000000 (by decide))
  · exact (if_pos (by decide)).mp (hticked 120000000001 (by decide))

/-- A session that was opened in the year 1000, by the only segment there is, times out with its first
tick. -/
theorem Tracker.timeout_without_lull :
    let f : Flow := ⟨.v4 ⟨10, 0, 0, 1⟩, 40000, .v4 ⟨10, 0, 0, 2⟩, 80⟩
    let opening : Segment := ⟨f, { syn := true }, 100, 0, [], -30610224000000000000⟩
    let start := Pool.new {} .standard
    let ss := start.stepsOfAll [.feed opening]
    let t := (Tracker.new "eth0" {} .standard).run [.feed opening]
    ({} : Config).validate = .ok () ∧ Instant.isRepresentable opening.seen = true ∧
      newestSeen [.feed opening] = some opening.seen ∧ t.pool = start.steps ss ∧
      start.openingOf 1 ss = some (f, opening.seen) ∧
      ¬Span.ofSeconds 120 <
        opening.seen - Lifecycle.lastActivity opening.seen (start.inputsOf 1 ss) ∧
      ∃ i slot session, t.pool.occupant i = some (slot, session) ∧ slot.generation = 1 ∧
        t.pool.TimedOut (t.perform (.tick i 0)).pool i session := by
  intro f opening start ss t
  have hlast : t.pool = start.steps ss := (Tracker.new "eth0" {} .standard).pool_run _
  have hconsistent : t.pool.Consistent := consistent_run "eth0" {} .standard _
  obtain ⟨hinputs, hopening, i, slot, session, ho, hg, hseen⟩ :=
    Pool.occupant_after_opening {} .standard (s := opening) (by decide)
  have hopen : t.pool.occupant i = some (slot, session) := hlast ▸ ho
  have hsettings : t.pool.config = {} := config_run "eth0" {} .standard _
  -- The watermark cannot show the year 1000 and stands in 1677.
  have hnow : t.pool.watermark.after 0 = some int64Min := now_run "eth0" {} .standard _
  have hlatest : int64Min ≤ Instant.latest := by decide
  have houtcome := hconsistent.tick_exact hopen (hsettings ▸ by decide) (hseen ▸ by decide) hlatest
  rw [hsettings, hseen, if_pos (by decide), ← pool_tick hnow i] at houtcome
  refine ⟨by decide, by decide, rfl, hlast, hopening, ?_, i, slot, session, hopen, hg, houtcome⟩
  rw [show start.inputsOf 1 ss = [.segment opening] from hinputs]
  decide

end FlowWatch
