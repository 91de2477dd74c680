/-
What a dump can do to an analysis.

A dump is written while the segments are read, and it may refuse any of them without harm: the outcome
of an analysis does not mention what was refused. Its end is another matter. What the dump still holds
back is written when it is completed, and if that fails the report is lost, however good the capture
was.
-/
import FlowWatch.Proofs.Analysis.Calls

set_option autoImplicit false

namespace FlowWatch.Analysis

open Capture (Event Source)

variable {σ : Type}

/-- What becomes of a source that is read to its end, whatever is dumped of it. -/
def outcome (path : Path) (size : Option UInt64) (source : Source) (config : Config) :
    Except AnalysisError Report :=
  match failure? source.stop with
  | some e => .error (.source e)
  | none =>
    match size with
    | none => .error .sizeUnknown
    | some bytes =>
      .ok (report path bytes (tallyOf source.events)
        ((Tracker.new (captureName path) config .standard).run (callsOf source.events)))

/-- Recording changes how far a dump got, and nothing else of it. -/
theorem recorded_some (w : Dump.Writer σ) (segments : List Segment) :
    ∃ state, recorded (some w) segments = some { w with state := state } := by
  induction segments generalizing w with
  | nil => exact ⟨w.state, rfl⟩
  | cons s segments ih => exact ih (w.record s).1

theorem recorded_none (segments : List Segment) :
    recorded (none : Option (Dump.Writer σ)) segments = none :=
  List.foldl_fixed' (fun _ => rfl) _

theorem withDump_eq (path : Path) (size : Option UInt64) (source : Source) (config : Config)
    (dump : Option (Dump.Writer σ)) :
    let completed := complete (recorded dump (segmentsOf source.events))
    withDump path size source config dump =
      (completed.1, if completed.2 then outcome path size source config else .error .dumpLost) := by
  intro completed
  unfold withDump outcome
  dsimp only
  rw [run_eq]
  change (if !completed.2 then _ else _) = _
  cases completed.2 with
  | false => rfl
  | true =>
    cases failure? source.stop with
    | some e => rfl
    | none => cases size <;> rfl

/-- Without a dump there is nothing to complete. -/
theorem ofSource_eq (path : Path) (size : Option UInt64) (source : Source) (config : Config) :
    ofSource path size source config = outcome path size source config := by
  unfold ofSource
  rw [withDump_eq, recorded_none]
  rfl

/-- **A dump changes nothing unless its end is lost.** Every segment of the source is recorded, whatever
the dump has refused before, and the dump is completed even where the source fails. If that succeeds, the
outcome is that of the analysis without a dump, report or error. If it does not, there is no report. -/
theorem dump_harmless_until_completed (path : Path) (size : Option UInt64) (source : Source)
    (config : Config) (dump : Option (Dump.Writer σ)) :
    let completed := complete (recorded dump (segmentsOf source.events))
    withDump path size source config dump =
      (completed.1,
        if completed.2 then ofSource path size source config else .error .dumpLost) := by
  rw [ofSource_eq]
  exact withDump_eq path size source config dump

/-- A dump that holds everything back and cannot write it out in the end, on a capture of one SYN. -/
theorem dump_lost_on_full_device :
    let held : Dump.Output String := ⟨fun s text => (s ++ text, true), fun s => (s, false)⟩
    let syn : List UInt8 :=
      [1, 2, 3, 4, 5, 6, 5, 4, 3, 2, 1, 0, 8, 0,
        69, 0, 0, 40, 0, 0, 64, 0, 64, 6, 38, 206, 10, 0, 0, 1, 10, 0, 0, 2,
        156, 64, 0, 80, 0, 0, 0, 0, 100, 0, 0, 0, 80, 2, 255, 255, 0, 0, 0, 0]
    let source : Source := ⟨[⟨some (.utc 1700000000000000005), Frame.linkEthernet, syn⟩], none⟩
    (segmentsOf source.events).length = 1 ∧
      (∃ r, ofSource "c.pcap" (some 94) source {} = .ok r) ∧
      (withDump "c.pcap" (some 94) source {} (some ⟨held, false, ""⟩)).2 = .error .dumpLost := by
  intro held syn source
  refine ⟨by decide, ⟨_, ofSource_eq "c.pcap" (some 94) source {}⟩, ?_⟩
  obtain ⟨state, hrecorded⟩ := recorded_some (⟨held, false, ""⟩ : Dump.Writer String)
    (segmentsOf source.events)
  rw [withDump_eq, hrecorded]
  rfl

end FlowWatch.Analysis
