/-
Which sessions a flush closes.

The sessions to flush are those without activity since a cutoff, and the pool asks the slots for it, not
the sessions. A slot holds the last activity in a signed 64-bit word, and the cutoff is any instant. So the
flush is exact as long as the word can hold the cutoff. A cutoff after the greatest word, in the year 2262,
closes every session, those that were active later too; a cutoff at or before the least, in 1677, closes
none.
-/
import FlowWatch.Proofs.Pool.Activity
import FlowWatch.Proofs.Pool.Flushes
import FlowWatch.Proofs.Tracker.Connection

set_option autoImplicit false

namespace FlowWatch

namespace Pool

/-- A cutoff chooses a session by its last activity, if the slot's word can hold the cutoff. -/
theorem Consistent.mem_chosen_older {p : Pool} (h : p.Consistent) {i : Nat} {slot : Slot}
    {session : Session} (ho : p.occupant i = some (slot, session))
    (hword : slot.lastSeen = clampInt64 session.lastSeen) (cutoff : Instant) :
    (i, slot, session) ∈ p.chosen (fun slot => slot.lastSeen < cutoff) ↔
      int64Max < cutoff ∨ (int64Min < cutoff ∧ session.lastSeen < cutoff) := by
  have hchosen : (i, slot, session) ∈ p.chosen (fun slot => slot.lastSeen < cutoff) ↔
      slot.lastSeen < cutoff :=
    h.mem_chosen.trans ((and_iff_right ho).trans decide_eq_true_iff)
  rw [hchosen, hword, clampInt64_lt_iff]

/-- After its first segment has opened a session, a new tracker holds this session. -/
theorem occupant_after_opening (config : Config) (registry : Registry) {s : Segment}
    (hopen : config.admits s = true) :
    let start := Pool.new config registry
    let ss := start.stepsOfAll [.feed s]
    start.inputsOf 1 ss = [.segment s] ∧ start.openingOf 1 ss = some (s.flow, s.seen) ∧
      ∃ i slot session, (start.steps ss).occupant i = some (slot, session) ∧ slot.generation = 1 ∧
        session.lastSeen = s.seen := by
  intro start ss
  have hcarried : ∀ t ∈ ([] : List Segment), s.flow.carries t = true :=
    fun t ht => absurd ht List.not_mem_nil
  obtain ⟨hopening, hinputs, l, hl⟩ := connection_carried_new config registry hopen hcarried
  obtain ⟨i, slot, session, ho, hg, -⟩ :=
    ((Consistent.new config registry).steps ss).lifecycle?_eq_some.mp hl
  obtain ⟨key, opened, hopened, hlast, -⟩ := lastSeen_of_occupant ho
  rw [hg] at hopened hlast
  obtain ⟨-, rfl⟩ := Prod.mk.inj (Option.some.inj (hopened.symm.trans hopening))
  refine ⟨hinputs, hopening, i, slot, session, ho, hg, ?_⟩
  rw [hlast, show start.inputsOf 1 ss = [.segment s] from hinputs]
  exact max_self s.seen

end Pool

/-- **Flushing by age.** After every run of a tracker and for every cutoff, a flush closes some of the open
sessions, each with one summary and as flushed, and returns their number; nothing else changes. A session
is among them if its last activity, the latest of its opening and of the segments it took, is before the
cutoff. The exceptions are cutoffs that are not above the least 64-bit word, which close nothing, and
those above the greatest, which close everything. -/
theorem Tracker.flush_by_last_activity (name : String) (config : Config) (registry : Registry)
    (calls : List TrackerCall) (cutoff : Instant) :
    let start := Pool.new config registry
    let ss := start.stepsOfAll calls
    let t := (Tracker.new name config registry).run calls
    t.pool = start.steps ss ∧
      ∃ gone, t.pool.Lost (t.flushOlder cutoff).pool gone ∧
        (t.pool.flushOlder cutoff).2 = gone.length ∧
        ∀ i slot session, t.pool.occupant i = some (slot, session) →
          ((i, slot, session) ∉ gone ↔
            (t.flushOlder cutoff).pool.occupant i = some (slot, session)) ∧
          ∃ key opened, start.openingOf slot.generation ss = some (key, opened) ∧
            session.lastSeen = Lifecycle.lastActivity opened (start.inputsOf slot.generation ss) ∧
            ((i, slot, session) ∈ gone ↔
              int64Max < cutoff ∨ (int64Min < cutoff ∧
                Lifecycle.lastActivity opened (start.inputsOf slot.generation ss) < cutoff)) := by
  intro start ss t
  have hlast : t.pool = start.steps ss := (Tracker.new name config registry).pool_run calls
  have hconsistent : t.pool.Consistent := consistent_run name config registry calls
  obtain ⟨hlost, hcount⟩ :=
    hconsistent.lost_flushSelected fun slot => decide (slot.lastSeen < cutoff)
  refine ⟨hlast, _, hlost, hcount, fun i slot session ho => ⟨hlost.kept_iff ho, ?_⟩⟩
  obtain ⟨key, opened, hopening, hactive, hword⟩ := Pool.lastSeen_of_occupant (hlast ▸ ho)
  refine ⟨key, opened, hopening, hactive, ?_⟩
  rw [← hactive]
  exact hconsistent.mem_chosen_older ho hword cutoff

/-- A session that was opened at the time 500 is closed by a flush of what is older than 1000, and not by a
flush of what is older than 500. -/
theorem Tracker.flush_of_one_session :
    let f : Flow := ⟨.v4 ⟨10, 0, 0, 1⟩, 40000, .v4 ⟨10, 0, 0, 2⟩, 80⟩
    let opening : Segment := ⟨f, { syn := true }, 100, 0, [], 500⟩
    let t := (Tracker.new "eth0" {} .standard).run [.feed opening]
    ∃ i slot session, t.pool.occupant i = some (slot, session) ∧
      (t.flushOlder 1000).pool.occupant i = none ∧
      (t.flushOlder 500).pool.occupant i = some (slot, session) := by
  intro f opening t
  obtain ⟨hinputs, hopening, i, slot, session, ho, hg, -⟩ :=
    Pool.occupant_after_opening {} .standard (s := opening) (by decide)
  have hlast : t.pool = (Pool.new {} .standard).steps _ :=
    (Tracker.new "eth0" {} .standard).pool_run [.feed opening]
  have hopen : t.pool.occupant i = some (slot, session) := hlast ▸ ho
  have hflush : ∀ cutoff, ∃ gone, t.pool.Lost (t.flushOlder cutoff).pool gone ∧
      ((i, slot, session) ∈ gone ↔
        int64Max < cutoff ∨ (int64Min < cutoff ∧
          Lifecycle.lastActivity 500 [.segment opening] < cutoff)) := by
    intro cutoff
    obtain ⟨-, gone, hlost, -, hgone⟩ :=
      Tracker.flush_by_last_activity "eth0" {} .standard [.feed opening] cutoff
    obtain ⟨-, key, opened, hfirst, -, hiff⟩ := hgone i slot session hopen
    rw [hg] at hfirst hiff
    obtain ⟨-, rfl⟩ := Prod.mk.inj (Option.some.inj (hfirst.symm.trans hopening))
    rw [show (Pool.new {} .standard).inputsOf 1 _ = [.segment opening] from hinputs] at hiff
    exact ⟨gone, hlost, hiff⟩
  refine ⟨i, slot, session, hopen, ?_, ?_⟩
  · obtain ⟨gone, hlost, hiff⟩ := hflush 1000
    have hmem := hiff.mpr (by decide)
    exact (hlost.occupant_eq i).trans (if_pos (List.mem_map.mpr ⟨_, hmem, rfl⟩))
  · obtain ⟨gone, hlost, hiff⟩ := hflush 500
    exact (hlost.kept_iff hopen).mp (mt hiff.mp (by decide))

/-- A session that was last active in the year 9000 is closed by a flush of what is older than the year
5000. -/
theorem Tracker.recent_session_flushed :
    let f : Flow := ⟨.v4 ⟨10, 0, 0, 1⟩, 40000, .v4 ⟨10, 0, 0, 2⟩, 80⟩
    let opening : Segment := ⟨f, { syn := true }, 100, 0, [], 221845392000000000000⟩
    let cutoff : Instant := 95617584000000000000
    let start := Pool.new {} .standard
    let ss := start.stepsOfAll [.feed opening]
    let t := (Tracker.new "eth0" {} .standard).run [.feed opening]
    Instant.isRepresentable opening.seen = true ∧ Instant.isRepresentable cutoff = true ∧
      t.pool = start.steps ss ∧ start.openingOf 1 ss = some (f, opening.seen) ∧
      ¬Lifecycle.lastActivity opening.seen (start.inputsOf 1 ss) < cutoff ∧
      ∃ i slot session, t.pool.occupant i = some (slot, session) ∧ slot.generation = 1 ∧
        session.lastSeen = opening.seen ∧ (t.flushOlder cutoff).pool.occupant i = none := by
  intro f opening cutoff start ss t
  have hlast : t.pool = start.steps ss := (Tracker.new "eth0" {} .standard).pool_run _
  have hconsistent : t.pool.Consistent := consistent_run "eth0" {} .standard _
  obtain ⟨hinputs, hopening, i, slot, session, ho, hg, hseen⟩ :=
    Pool.occupant_after_opening {} .standard (s := opening) (by decide)
  obtain ⟨-, -, -, -, hword⟩ := Pool.lastSeen_of_occupant ho
  have hopen : t.pool.occupant i = some (slot, session) := hlast ▸ ho
  refine ⟨by decide, by decide, hlast, hopening, ?_, i, slot, session, hopen, hg, hseen, ?_⟩
  · rw [show start.inputsOf 1 ss = [.segment opening] from hinputs]
    decide
  · -- The slot's word cannot hold the year 5000, so everything is before it.
    obtain ⟨hlost, -⟩ :=
      hconsistent.lost_flushSelected fun slot => decide (slot.lastSeen < cutoff)
    have hmem := (hconsistent.mem_chosen_older hopen hword cutoff).mpr (.inl (by decide))
    exact (hlost.occupant_eq i).trans (if_pos (List.mem_map.mpr ⟨_, hmem, rfl⟩))

end FlowWatch
