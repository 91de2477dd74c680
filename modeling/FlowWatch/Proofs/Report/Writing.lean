/-
Which reports can be written.

A timestamp has a written form if its clock shows one of the years 0 to 9999 and its offset is of less
than a day, in whole minutes. The capture's own times are texts when they come into a report, and left out
where there is none, so they never stand in the way. The times of sessions and exchanges are written with
their record, and a list is written only if each of its items is. One time without a written form therefore
costs the whole report. Instants end with the year 9999, so of those in UTC it is the ones before the year 0
that have none.
-/
import FlowWatch.Proofs.Report.RoundTrip

set_option autoImplicit false

namespace FlowWatch

open Time

/-! ## Times and records -/

/-- **An instant in UTC has no written form exactly before the year 0.** -/
theorem Stamp.toJson?_utc_eq_none_iff {t : Instant} (h : Instant.isRepresentable t = true) :
    (Stamp.utc t).toJson? = none ↔ t < Instant.yearZero := by
  have hle := ((isRepresentable_iff_year t).mp h).2
  have hclock : (Stamp.utc t).localNanoseconds = t := Stamp.localNanoseconds_of_utc rfl
  have hoffset : Stamp.offsetHasText (Stamp.utc t).offset = true := rfl
  rw [Stamp.toJson?, Option.map_eq_none_iff, Stamp.rfc3339?_eq_none_iff, hclock,
    and_iff_left hoffset, and_iff_left hle, ← Instant.yearZero_le_iff, Int.not_le]

theorem SessionRecord.toJson?_eq_none_iff (s : SessionRecord) :
    s.toJson? = none ↔ s.firstSeen.toJson? = none ∨ s.lastSeen.toJson? = none := by
  unfold SessionRecord.toJson?
  rcases s.firstSeen.toJson? with _ | first
  · simp
  · rcases s.lastSeen.toJson? with _ | last <;> simp

theorem ExchangeRecord.toJson?_eq_none_iff (e : ExchangeRecord) :
    e.toJson? = none ↔ e.requestedAt.toJson? = none := by
  unfold ExchangeRecord.toJson?
  rcases e.requestedAt.toJson? with _ | requested <;> simp

namespace Report

/-! ## Reports -/

/-- A list is lost with one of its items. -/
theorem mapM_eq_none_iff {α β : Type} {f : α → Option β} {as : List α} :
    as.mapM f = none ↔ ∃ a ∈ as, f a = none := by
  constructor
  · intro hnone
    by_contra hall
    have hsome : ∀ a ∈ as, ∃ b, f a = some b := fun a ha =>
      Option.ne_none_iff_exists'.mp fun hfa => hall ⟨a, ha, hfa⟩
    obtain ⟨bs, hbs⟩ := exists_mapM hsome
    exact absurd (hnone.symm.trans hbs) (by simp)
  · rintro ⟨a, ha, hfa⟩
    induction as with
    | nil => exact absurd ha List.not_mem_nil
    | cons b as ih =>
      rw [List.mapM_cons]
      rcases List.mem_cons.mp ha with rfl | hlater
      · rw [hfa]
        rfl
      · rw [ih hlater]
        rcases f b with _ | c <;> rfl

theorem toJson?_eq_none_iff (r : Report) :
    r.toJson? = none ↔
      (∃ s ∈ r.sessions, s.toJson? = none) ∨ ∃ e ∈ r.exchanges, e.toJson? = none := by
  rw [← mapM_eq_none_iff, ← mapM_eq_none_iff]
  unfold Report.toJson?
  rcases r.sessions.mapM SessionRecord.toJson? with _ | sessions
  · simp
  · rcases r.exchanges.mapM ExchangeRecord.toJson? with _ | exchanges <;> simp

/-- The times of the sessions and the exchanges are in UTC and among those that `A` holds of, and a
session was seen last no earlier than first. -/
structure Dated (A : Instant → Prop) (r : Report) : Prop where
  sessions : ∀ s ∈ r.sessions, ∃ first last, A first ∧ A last ∧ first ≤ last ∧
    s.firstSeen = .utc first ∧ s.lastSeen = .utc last
  exchanges : ∀ e ∈ r.exchanges, ∃ requested, A requested ∧ e.requestedAt = .utc requested

variable {r : Report}

/-- **A report cannot be written exactly if a session was first seen, or an exchange requested, before
the year 0**, whatever the layout. -/
theorem Dated.render?_eq_none_iff (h : r.Dated (Instant.isRepresentable · = true)) (layout : Json.Layout) :
    r.render? layout = none ↔
      (∃ s ∈ r.sessions, s.firstSeen.instant < Instant.yearZero) ∨
        ∃ e ∈ r.exchanges, e.requestedAt.instant < Instant.yearZero := by
  rw [render?, Option.map_eq_none_iff, toJson?_eq_none_iff]
  refine or_congr (exists_congr fun s => and_congr_right fun hs => ?_)
    (exists_congr fun e => and_congr_right fun he => ?_)
  · obtain ⟨first, last, hfirst, hlast, hle, heqFirst, heqLast⟩ := h.sessions s hs
    rw [s.toJson?_eq_none_iff, heqFirst, heqLast, Stamp.toJson?_utc_eq_none_iff hfirst,
      Stamp.toJson?_utc_eq_none_iff hlast]
    -- The last time is no earlier, so it adds nothing.
    exact or_iff_left_of_imp fun hbefore => Int.lt_of_le_of_lt hle hbefore
  · obtain ⟨requested, hrequested, heq⟩ := h.exchanges e he
    rw [e.toJson?_eq_none_iff, heq, Stamp.toJson?_utc_eq_none_iff hrequested]
    rfl

/-- With all times from the year 0 on it is written. -/
theorem Dated.exists_render? (h : r.Dated (Instant.isRepresentable · = true))
    (hall : r.Dated (Instant.yearZero ≤ ·)) (layout : Json.Layout) :
    ∃ text, r.render? layout = some text := by
  refine Option.ne_none_iff_exists'.mp fun hnone => ?_
  rcases (h.render?_eq_none_iff layout).mp hnone with ⟨s, hs, hbefore⟩ | ⟨e, he, hbefore⟩
  · obtain ⟨first, -, hfirst, -, -, heq, -⟩ := hall.sessions s hs
    rw [heq] at hbefore
    exact absurd hfirst (Int.not_le.mpr hbefore)
  · obtain ⟨requested, hrequested, heq⟩ := hall.exchanges e he
    rw [heq] at hbefore
    exact absurd hrequested (Int.not_le.mpr hbefore)

end Report

end FlowWatch
