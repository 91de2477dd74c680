/-
When the report of an analysis can be written.

Times come into a report on several ways. Those of the capture are written beforehand and left out where
RFC 3339 has no form for them, so a packet that only counts cannot do harm, whatever its time. Those of
the sessions and exchanges are written with the report. They are the times of segments, and one that lies
before the year 0 costs the whole report: a session that was opened then, or a request that was made then
and answered. No other time does, and in particular a session that was opened in time is not lost to a
later segment.

All this is about sources in UTC, as every capture file is one (`Capture.stamped_openFile`): there the times
of segments are written just as their packets were stamped. At another offset the year that counts is that
of the packet's own clock, and an offset of its own may be what has no written form.
-/
import FlowWatch.Proofs.Analysis.Totals
import FlowWatch.Proofs.Pool.Lives
import FlowWatch.Proofs.Report.Writing
import FlowWatch.Proofs.Tracker.Origins

set_option autoImplicit false

namespace FlowWatch.Analysis

open Capture (Event Source)

variable {path : Path} {bytes : UInt64} {events : List Event} {config : Config}
  {calls : List TrackerCall}

/-- **The times in a report are those of segments.** -/
theorem pacedReport_dated {A : Instant → Prop} (h : Paces (segmentsOf events) calls)
    (hseen : ∀ s ∈ segmentsOf events, A s.seen) :
    (pacedReport path bytes events config calls).Dated A where
  sessions r hr := by
    obtain ⟨s, reason, hs, rfl⟩ := Tracker.timed_flushed (captureName path) config .standard h hseen r
      ((sessions_perm _ _ _ _).mem_iff.mp hr)
    exact ⟨s.firstSeen, s.lastSeen, hs.first, hs.last, hs.le, rfl, rfl⟩
  exchanges e he := by
    obtain ⟨segment, hsegment, request, hread, heq⟩ := Tracker.exchanges_requested
      (captureName path) config .standard h e ((exchanges_perm _ _ _ _).mem_iff.mp he)
    refine ⟨segment.seen, hseen segment hsegment, ?_⟩
    rw [heq, Registry.seen_of_reads hread]

/-- The first times in a report are those at which sessions were opened. -/
theorem pacedReport_firstSeen (A : Instant → Prop) (h : Paces (segmentsOf events) calls) :
    let start := Pool.new config .standard
    let ss := start.stepsOfAll (calls ++ [TrackerCall.flushAll])
    (∃ s ∈ (pacedReport path bytes events config calls).sessions, A s.firstSeen.instant) ↔
      ∃ g key opened, start.openingOf g ss = some (key, opened) ∧ A opened := by
  intro start ss
  have hperm := sessions_perm path bytes (tallyOf events)
    (Tracker.flushed (captureName path) config .standard calls)
  have hfirst := Tracker.firstSeen_flushed (captureName path) config .standard calls
  constructor
  · rintro ⟨s, hs, hA⟩
    obtain ⟨first, -, -, -, -, heq, -⟩ :=
      (pacedReport_dated (A := fun _ => True) h fun _ _ => trivial).sessions s hs
    obtain ⟨g, key, hopening⟩ := (hfirst first).mp ⟨s, hperm.mem_iff.mp hs, heq⟩
    rw [heq] at hA
    exact ⟨g, key, first, hopening, hA⟩
  · rintro ⟨g, key, opened, hopening, hA⟩
    obtain ⟨s, hs, heq⟩ := (hfirst opened).mpr ⟨g, key, hopening⟩
    refine ⟨s, hperm.mem_iff.mpr hs, ?_⟩
    rw [heq]
    exact hA

/-- The epoch stands in for a time that is missing, so all times of segments are representable. -/
theorem isRepresentable_seen
    (htimes : ∀ e ∈ events, ∀ t, e.time = some t → Instant.isRepresentable t = true) :
    ∀ s ∈ segmentsOf events, Instant.isRepresentable s.seen = true :=
  Tally.seen_of_mem (A := (Instant.isRepresentable · = true)) (by simp) htimes (.inl (by decide))

/-- In a source in UTC, a segment has the time that its packet or one before it was stamped with, else the
epoch. -/
theorem stamped_seen (hutc : ∀ e ∈ events, e.InUtc) :
    ∀ s ∈ segmentsOf events, s.seen = 0 ∨ ∃ e ∈ events, e.stamp = some (.utc s.seen) := by
  refine Tally.seen_of_mem (A := fun t => t = 0 ∨ ∃ e ∈ events, e.stamp = some (.utc t)) (by simp) ?_
    (.inl (.inl rfl))
  intro e he t ht
  obtain ⟨stamp, hstamp, rfl⟩ := Option.map_eq_some_iff.mp ht
  refine .inr ⟨e, he, ?_⟩
  rw [hstamp, Stamp.utc, ← hutc e he stamp hstamp]

/-- What costs a report. -/
theorem pacedReport_lost_iff (h : Paces (segmentsOf events) calls)
    (htimes : ∀ e ∈ events, ∀ t, e.time = some t → Instant.isRepresentable t = true)
    (layout : Json.Layout) :
    let r := pacedReport path bytes events config calls
    let start := Pool.new config .standard
    let ss := start.stepsOfAll (calls ++ [TrackerCall.flushAll])
    r.render? layout = none ↔
      (∃ g key opened, start.openingOf g ss = some (key, opened) ∧ opened < Instant.yearZero) ∨
        ∃ e ∈ r.exchanges, e.requestedAt.instant < Instant.yearZero := by
  intro r start ss
  rw [(pacedReport_dated h (isRepresentable_seen htimes)).render?_eq_none_iff layout]
  exact or_congr_left (pacedReport_firstSeen (· < Instant.yearZero) h)

/-- A source that ends, or is cut within a record, has the report of a run in which nobody ticks. -/
theorem ofSource_ended (path : Path) (bytes : UInt64) {source : Source} (config : Config)
    (hstop : failure? source.stop = none) :
    ofSource path (some bytes) source config = .ok (pacedReport path bytes source.events config
      ((segmentsOf source.events).map .feed)) := by
  rw [ofSource_eq]
  unfold outcome
  rw [hstop]
  rfl

/-- **A report can be written unless a session or a request is older than the year 0.** Every source in UTC
that ends, or is cut within a record, has a report, that of a run in which nobody ticks. In the report of
every run, with ticks or without, all times of sessions and exchanges are those of segments of the source,
written as packets were stamped, or the epoch before any packet had a time; the report cannot be written, in
either layout, exactly if a session was opened before the year 0 or the request of an exchange was made
then. So if all segments are from the year 0 on, the report is written, whatever the times of the packets
are that carry none. -/
theorem written_from_year_zero (path : Path) (bytes : UInt64) (source : Source) (config : Config)
    (hstop : failure? source.stop = none) (hutc : source.InUtc)
    (htimes : ∀ e ∈ source.events, ∀ t, e.time = some t → Instant.isRepresentable t = true) :
    (∃ calls, Paces (segmentsOf source.events) calls ∧
        ofSource path (some bytes) source config =
          .ok (pacedReport path bytes source.events config calls)) ∧
      ∀ calls, Paces (segmentsOf source.events) calls →
        let r := pacedReport path bytes source.events config calls
        let start := Pool.new config .standard
        let ss := start.stepsOfAll (calls ++ [TrackerCall.flushAll])
        r.Dated (fun t => (∃ s ∈ segmentsOf source.events, s.seen = t) ∧
            (t = 0 ∨ ∃ e ∈ source.events, e.stamp = some (.utc t))) ∧
          (∀ layout, r.render? layout = none ↔
            (∃ g key opened, start.openingOf g ss = some (key, opened) ∧
                opened < Instant.yearZero) ∨
              ∃ e ∈ r.exchanges, e.requestedAt.instant < Instant.yearZero) ∧
          ((∀ s ∈ segmentsOf source.events, Instant.yearZero ≤ s.seen) →
            ∀ layout, ∃ text, r.render? layout = some text) := by
  refine ⟨⟨_, Paces.unticked _, ofSource_ended path bytes config hstop⟩, ?_⟩
  intro calls h r start ss
  refine ⟨pacedReport_dated h fun s hs => ⟨⟨s, hs, rfl⟩, stamped_seen hutc s hs⟩,
    pacedReport_lost_iff h htimes, ?_⟩
  intro hall layout
  exact (pacedReport_dated h (isRepresentable_seen htimes)).exists_render? (pacedReport_dated h hall)
    layout

/-- A SYN at the first instant of the year 0, after a frame from before it that cannot be read. -/
theorem written_beside_old_packet :
    let syn : List UInt8 :=
      [1, 2, 3, 4, 5, 6, 6, 5, 4, 3, 2, 1, 8, 0,
        69, 0, 0, 40, 0, 0, 64, 0, 64, 6, 38, 206, 10, 0, 0, 1, 10, 0, 0, 2,
        156, 64, 0, 80, 0, 0, 0, 100, 0, 0, 0, 0, 80, 2, 255, 255, 0, 0, 0, 0]
    let events : List Event :=
      [⟨some (.utc (-62167219200000000001)), Frame.linkEthernet, []⟩,
        ⟨some (.utc (-62167219200000000000)), Frame.linkEthernet, syn⟩]
    (segmentsOf events).map (·.seen) = [Instant.yearZero] ∧
      ∃ r text, ofSource "c.pcapng" (some 188) ⟨events, none⟩ {} = .ok r ∧
        r.render? .compact = some text := by
  intro syn events
  have hutc : ∀ e ∈ events, e.InUtc := by
    simp [events, Event.InUtc, Stamp.utc]
  obtain ⟨⟨calls, hpaced, hreport⟩, hall⟩ := written_from_year_zero "c.pcapng" 188 ⟨events, none⟩ {}
    rfl hutc (by decide)
  obtain ⟨-, -, hwritten⟩ := hall calls hpaced
  obtain ⟨text, htext⟩ := hwritten (by decide) .compact
  exact ⟨by decide, _, text, hreport, htext⟩

/-! ## Reports that are lost -/

/-- The session that the first segment opens is as old as the segment, and it costs the report if that
was before the year 0. -/
theorem lost_of_first_segment (path : Path) (bytes : UInt64) {source : Source} (config : Config)
    (hstop : failure? source.stop = none)
    (htimes : ∀ e ∈ source.events, ∀ t, e.time = some t → Instant.isRepresentable t = true)
    {s : Segment} {rest : List Segment} (hsegments : segmentsOf source.events = s :: rest)
    (hopen : config.admits s = true) (hbefore : s.seen < Instant.yearZero) :
    ∃ r, ofSource path (some bytes) source config = .ok r ∧
      r.captureSummary = some (tallyOf source.events).summary ∧
      ∀ layout, r.render? layout = none := by
  refine ⟨_, ofSource_ended path bytes config hstop, rfl, fun layout => ?_⟩
  refine (pacedReport_lost_iff (Paces.unticked _) htimes layout).mpr ?_
  refine .inl ⟨1, s.flow, s.seen, ?_, hbefore⟩
  have halone : ∀ t ∈ ([] : List Segment), s.flow.carries t = true :=
    fun t ht => absurd ht List.not_mem_nil
  obtain ⟨hopening, -, -⟩ := Pool.connection_carried_new config .standard hopen halone
  rw [hsegments]
  exact (congrArg _ (Pool.stepsOfAll_append _ [.feed s] _)).trans (Pool.openingOf_append hopening _)

/-- One SYN, with the padding of its block, a nanosecond before the year 0. The capture's own times are
left out, and still the report cannot be written. -/
theorem lost_before_year_zero :
    let syn : List UInt8 :=
      [1, 2, 3, 4, 5, 6, 6, 5, 4, 3, 2, 1, 8, 0,
        69, 0, 0, 40, 0, 0, 64, 0, 64, 6, 38, 206, 10, 0, 0, 1, 10, 0, 0, 2,
        156, 64, 0, 80, 0, 0, 0, 100, 0, 0, 0, 0, 80, 2, 255, 255, 0, 0, 0, 0, 0, 0]
    let source : Source :=
      ⟨[⟨some (.utc (-62167219200000000001)), Frame.linkEthernet, syn⟩], none⟩
    source.InUtc ∧ Instant.isRepresentable (-62167219200000000001) = true ∧
      ∃ r extent, ofSource "c.pcapng" (some 160) source {} = .ok r ∧
        r.captureSummary = some extent ∧ extent.timeStart = none ∧ extent.timeEnd = none ∧
        ∀ layout, r.render? layout = none := by
  intro syn source
  have hutc : source.InUtc := by
    simp [source, Source.InUtc, Event.InUtc, Stamp.utc]
  have hsegments : segmentsOf source.events =
      [⟨⟨.v4 ⟨10, 0, 0, 1⟩, 40000, .v4 ⟨10, 0, 0, 2⟩, 80⟩, { syn := true }, 100, 0, [],
        -62167219200000000001⟩] := by
    decide
  obtain ⟨r, hreport, hsummary, hlost⟩ := lost_of_first_segment "c.pcapng" 160 {} rfl
    (by decide) hsegments (by decide) (by decide)
  exact ⟨hutc, by decide, r, _, hreport, hsummary, by decide, by decide, hlost⟩

end FlowWatch.Analysis
