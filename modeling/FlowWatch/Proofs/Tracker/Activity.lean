/-
Two copies of one time.

A session keeps the time of its last activity as it is, and the pool looks at a copy in the slot that is a
64-bit word. The two are moved in different places, and the word stays in the slot from one session to the
next. In every run they agree all the same: for each open session the one is the latest of its opening and of
the segments it took, the other is the same time clamped, and a listing and a flush go by the clamped time and
nothing else.
-/
import FlowWatch.Proofs.Pool.Activity
import FlowWatch.Proofs.Pool.Flushes
import FlowWatch.Proofs.Session.Figures
import FlowWatch.Proofs.Tracker.Connection
import Mathlib.Order.Bounds.Basic

set_option autoImplicit false

namespace FlowWatch

namespace Lifecycle

/-- The times of activity of a session: its opening, and the segments it took. -/
def activityTimes (opened : Instant) (inputs : List Input) : Set Instant :=
  {time | time = opened ∨ ∃ s, .segment s ∈ inputs ∧ s.seen = time}

/-- The latest of these times is among them, and none is later. -/
theorem isGreatest_lastActivity (opened : Instant) (inputs : List Input) :
    IsGreatest (activityTimes opened inputs) (lastActivity opened inputs) := by
  induction inputs generalizing opened with
  | nil =>
    refine ⟨.inl rfl, ?_⟩
    rintro time (rfl | ⟨s, hs, -⟩)
    · exact Int.le_refl _
    · exact absurd hs List.not_mem_nil
  | cons input inputs ih =>
    rw [lastActivity_cons]
    cases input with
    | tick now =>
      -- A tick is no activity.
      have hsame : activityTimes opened (.tick now :: inputs) = activityTimes opened inputs := by
        simp [activityTimes]
      rw [hsame]
      exact ih opened
    | segment s =>
      obtain ⟨hmem, hbound⟩ := ih (max opened s.seen)
      constructor
      · rcases hmem with hlast | ⟨later, hlater, hlast⟩
        · rcases max_choice opened s.seen with hopened | hseen
          · exact .inl (hlast.trans hopened)
          · exact .inr ⟨s, List.mem_cons_self, (hlast.trans hseen).symm⟩
        · exact .inr ⟨later, List.mem_cons_of_mem _ hlater, hlast⟩
      · have hfirst := hbound (.inl rfl)
        rintro time (rfl | ⟨other, hother, rfl⟩)
        · exact (le_max_left _ _).trans hfirst
        · rcases List.mem_cons.mp hother with heq | hlater
          · obtain rfl := Input.segment.inj heq
            exact (le_max_right _ _).trans hfirst
          · exact hbound (.inr ⟨other, hlater, rfl⟩)

end Lifecycle

/-- The times of a session in its slot are those of its opening and of the segments it took. -/
structure Slot.Timed (slot : Slot) (session : Session) (opened : Instant)
    (inputs : List Lifecycle.Input) : Prop where
  first : session.firstSeen = opened
  last : IsGreatest (Lifecycle.activityTimes opened inputs) session.lastSeen
  /-- The copy is a 64-bit word. -/
  word : slot.lastSeen = clampInt64 session.lastSeen

namespace Pool

variable {p : Pool} {i : Nat} {slot : Slot} {session : Session}

/-- The listing shows the sessions in the slots, and the slots' copies of the last activity. -/
theorem Consistent.mem_openSessions (h : p.Consistent) {o : OpenSession} :
    o ∈ p.openSessions ↔ ∃ i slot session, p.occupant i = some (slot, session) ∧
      o = ⟨session.key, session.firstSeen, slot.lastSeen⟩ := by
  rw [h.openSessions_perm.mem_iff, List.mem_filterMap]
  constructor
  · rintro ⟨slot, hslot, hshown⟩
    obtain ⟨session, hsession, rfl⟩ := Option.map_eq_some_iff.mp hshown
    obtain ⟨i, hi⟩ := List.mem_iff_getElem?.mp hslot
    exact ⟨i, slot, session, occupant_eq_some.mpr
      ⟨Array.getElem?_toList ▸ hi, Slot.session?_eq_some.mp hsession⟩, rfl⟩
  · rintro ⟨i, slot, session, ho, rfl⟩
    obtain ⟨hs, hphase⟩ := occupant_eq_some.mp ho
    refine ⟨slot, List.mem_iff_getElem?.mpr ⟨i, Array.getElem?_toList ▸ hs⟩, ?_⟩
    unfold Slot.shown?
    rw [Slot.session?_eq_some.mpr hphase]
    rfl

/-- A flush leaves a session alone if its slot's copy is not before the cutoff. -/
theorem Consistent.kept_by_flush_iff (h : p.Consistent) (ho : p.occupant i = some (slot, session))
    (cutoff : Instant) :
    (p.flushOlder cutoff).1.occupant i = some (slot, session) ↔ cutoff ≤ slot.lastSeen := by
  obtain ⟨hlost, -⟩ := h.lost_flushSelected fun slot => decide (slot.lastSeen < cutoff)
  refine (hlost.kept_iff ho).symm.trans ?_
  rw [h.mem_chosen, and_iff_right ho, decide_eq_true_iff, Int.not_lt]

/-- **Whoever stands in a slot at the end of a run has the times of its life there.** -/
theorem timed_of_occupant {config : Config} {registry : Registry} {ss : List PoolStep}
    (ho : ((Pool.new config registry).steps ss).occupant i = some (slot, session)) :
    ∃ opened, (Pool.new config registry).openingOf slot.generation ss = some (session.key, opened) ∧
      slot.Timed session opened ((Pool.new config registry).inputsOf slot.generation ss) := by
  obtain ⟨key, opened, hopening, halone, -⟩ := lifecycle_of_occupant ho
  obtain ⟨key', opened', hopening', hactive, hword⟩ := lastSeen_of_occupant ho
  obtain ⟨rfl, rfl⟩ := Prod.mk.inj (Option.some.inj (hopening.symm.trans hopening'))
  have hkey : session.key = key :=
    (congrArg (·.session.key) halone).trans (Lifecycle.key_replay config registry _)
  refine ⟨opened, hkey ▸ hopening, ?_, ?_, hword⟩
  · exact (congrArg (·.session.firstSeen) halone).trans
      (Lifecycle.firstSeen_replay config registry (Lifecycle.begin config key opened) _)
  · rw [hactive]
    exact Lifecycle.isGreatest_lastActivity opened _

end Pool

/-- **The two copies of the last activity agree.** After every run of a tracker, whoever is open in a slot was
opened there at the time that it was first seen at; the last activity of the session is the latest of this
time and the times of the segments it took, and the slot's word is the nearest 64-bit word to it. The listing
of the open sessions shows this word, and a flush of what is older than a cutoff spares a session exactly if
this word is not before the cutoff. -/
theorem Tracker.last_activities_agree (name : String) (config : Config) (registry : Registry)
    (calls : List TrackerCall) :
    let start := Pool.new config registry
    let ss := start.stepsOfAll calls
    let t := (Tracker.new name config registry).run calls
    t.pool = start.steps ss ∧
      (∀ o, o ∈ t.pool.openSessions ↔ ∃ i slot session, t.pool.occupant i = some (slot, session) ∧
        o = ⟨session.key, session.firstSeen, clampInt64 session.lastSeen⟩) ∧
      ∀ i slot session, t.pool.occupant i = some (slot, session) →
        (∃ opened, start.openingOf slot.generation ss = some (session.key, opened) ∧
          slot.Timed session opened (start.inputsOf slot.generation ss)) ∧
        ∀ cutoff, (t.flushOlder cutoff).pool.occupant i = some (slot, session) ↔
          cutoff ≤ clampInt64 session.lastSeen := by
  intro start ss t
  have hlast : t.pool = start.steps ss := (Tracker.new name config registry).pool_run calls
  have hconsistent : t.pool.Consistent := consistent_run name config registry calls
  have htimed : ∀ i slot session, t.pool.occupant i = some (slot, session) →
      ∃ opened, start.openingOf slot.generation ss = some (session.key, opened) ∧
        slot.Timed session opened (start.inputsOf slot.generation ss) :=
    fun i slot session ho => Pool.timed_of_occupant (hlast ▸ ho)
  refine ⟨hlast, fun o => ?_, fun i slot session ho => ⟨htimed i slot session ho, fun cutoff => ?_⟩⟩
  · refine hconsistent.mem_openSessions.trans ?_
    refine exists₃_congr fun i slot session => and_congr_right fun ho => ?_
    obtain ⟨opened, -, htimes⟩ := htimed i slot session ho
    rw [htimes.word]
  · obtain ⟨opened, -, htimes⟩ := htimed i slot session ho
    rw [← htimes.word]
    exact hconsistent.kept_by_flush_iff ho cutoff

/-- A session was opened in the year 9000, and a segment from 1970 came after that: the last activity is that
of the opening, and the slot shows the greatest word. -/
theorem Tracker.last_activity_beyond_word :
    let f : Flow := ⟨.v4 ⟨10, 0, 0, 1⟩, 40000, .v4 ⟨10, 0, 0, 2⟩, 80⟩
    let opening : Segment := ⟨f, { syn := true }, 100, 0, [], 221845392000000000000⟩
    let late : Segment := ⟨f, { ack := true }, 101, 0, [71, 69, 84], 500⟩
    let t := (Tracker.new "eth0" {} .standard).run [.feed opening, .feed late]
    ∃ i slot session, t.pool.occupant i = some (slot, session) ∧
      session.firstSeen = opening.seen ∧ session.lastSeen = opening.seen ∧
      slot.lastSeen = int64Max ∧
      (t.flushOlder int64Max).pool.occupant i = some (slot, session) := by
  intro f opening late t
  have hcarried : ∀ s ∈ [late], f.carries s = true := by
    intro s hs
    rw [List.mem_singleton.mp hs]
    decide
  obtain ⟨hopening, hinputs, l, hl⟩ :=
    Pool.connection_carried_new {} .standard (s := opening) (by decide) hcarried
  obtain ⟨hlast, -, hagree⟩ :=
    Tracker.last_activities_agree "eth0" {} .standard [.feed opening, .feed late]
  obtain ⟨i, slot, session, ho, hg, -⟩ :=
    ((Pool.Consistent.new {} .standard).steps _).lifecycle?_eq_some.mp hl
  have hopen : t.pool.occupant i = some (slot, session) := hlast ▸ ho
  obtain ⟨⟨opened, hfirst, htimes⟩, hflush⟩ := hagree i slot session hopen
  rw [hg] at hfirst htimes
  obtain ⟨-, rfl⟩ := Prod.mk.inj (Option.some.inj (hfirst.symm.trans hopening))
  have htaken : (Pool.new {} .standard).inputsOf 1
      ((Pool.new {} .standard).stepsOfAll [.feed opening, .feed late]) =
        [.segment opening, .segment late] := hinputs
  have hactive : session.lastSeen = opening.seen := by
    refine htimes.last.unique ?_
    rw [htaken]
    exact Lifecycle.isGreatest_lastActivity opening.seen [.segment opening, .segment late]
  have hword : clampInt64 session.lastSeen = int64Max := by
    rw [hactive]
    decide
  exact ⟨i, slot, session, hopen, htimes.first, hactive, htimes.word.trans hword,
    (hflush int64Max).mpr hword.ge⟩

end FlowWatch
