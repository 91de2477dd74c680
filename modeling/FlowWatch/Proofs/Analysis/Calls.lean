/-
What an analysis asks of its tracker.

What a frame carries does not depend on the tracker, and its time depends on the packets before it at
most. So a source has a list of segments, told from its packets alone (`segmentsOf`), and an analysis is
a run of a tracker: every segment is fed, and a flush of everything comes last. The tally and the dump
stand beside the run, and neither has a say in it (`run_eq`).
-/
import FlowWatch.Analysis
import FlowWatch.Proofs.Tracker.Runs

set_option autoImplicit false

namespace FlowWatch.Analysis

open Capture (Event)

variable {σ : Type}

/-! ## What packets carry -/

namespace Tally

/-- The segment in the next packet, if its frame carries one. -/
def segment? (t : Tally) (e : Event) : Option Segment :=
  match Frame.segment e.link e.data (t.packet e.stamp).seen with
  | .ok found => found
  | .error _ => none

/-- The tally with the next packet, and the segment in it, counted. -/
def after (t : Tally) (e : Event) : Tally :=
  if (t.segment? e).isSome then (t.packet e.stamp).segment else t.packet e.stamp

/-- The segments in a list of packets. -/
def segmentsOf (t : Tally) : List Event → List Segment
  | [] => []
  | e :: events => (t.segment? e).toList ++ (t.after e).segmentsOf events

end Tally

/-- The segments in the packets of a source. -/
def segmentsOf (events : List Event) : List Segment := Tally.segmentsOf {} events

/-- The tally of the packets of a source. -/
def tallyOf (events : List Event) : Tally := events.foldl Tally.after {}

/-- The dump once a list of segments has been recorded, whatever it has refused. -/
def recorded (dump : Option (Dump.Writer σ)) (segments : List Segment) : Option (Dump.Writer σ) :=
  segments.foldl (fun dump s => dump.map fun w => (w.record s).1) dump

/-- The calls of an analysis. -/
def callsOf (events : List Event) : List TrackerCall :=
  (segmentsOf events).map .feed ++ [.flushAll]

/-! ## When segments are seen -/

theorem seen_tcp? {src dst : Address} {seen : Instant} {bs : List UInt8} {s : Segment}
    (h : Frame.tcp? src dst seen bs = some s) : s.seen = seen := by
  unfold Frame.tcp? at h
  dsimp only at h
  split_ifs at h
  rw [← Option.some.inj h]

/-- A segment was seen when its frame was. -/
theorem seen_segment {link : Frame.LinkType} {bs : List UInt8} {seen : Instant} {s : Segment}
    (h : Frame.segment link bs seen = .ok (some s)) : s.seen = seen := by
  have hpacket : ∀ p : Frame.Packet, p.segment seen = .ok (some s) → s.seen = seen := by
    intro p hp
    unfold Frame.Packet.segment at hp
    rcases htcp : Frame.tcp? p.src p.dst seen p.payload with _ | found
    · rw [htcp] at hp
      split_ifs at hp <;> simp [Frame.wellFormed, Except.map] at hp
    · rw [htcp] at hp
      split_ifs at hp
      all_goals simp [Frame.wellFormed, Except.map] at hp
      exact hp ▸ seen_tcp? htcp
  unfold Frame.segment at h
  split_ifs at h
  · rcases hp : Frame.ethernetPacket bs with fault | p
    · rw [hp] at h
      exact absurd h (by simp [bind, Except.bind])
    · rw [hp] at h
      exact hpacket p h
  · rcases hp : Frame.wellFormed (Frame.ip? bs) with fault | p
    · rw [hp] at h
      exact absurd h (by simp [bind, Except.bind])
    · rw [hp] at h
      exact hpacket p h
  · exact absurd h (by simp)

/-- What holds of the times of all packets holds of the times of all segments. A segment takes the epoch
for its time only if it comes before every packet that has one. -/
theorem Tally.seen_of_mem {A : Instant → Prop} {t : Tally} {events : List Event}
    (hcurrent : ∀ u, t.current = some u → A u)
    (htimes : ∀ e ∈ events, ∀ u, e.time = some u → A u)
    (hepoch : A 0 ∨ ∀ e ∈ events, e.time ≠ none) : ∀ s ∈ t.segmentsOf events, A s.seen := by
  induction events generalizing t with
  | nil => exact fun s hs => absurd hs List.not_mem_nil
  | cons e events ih =>
    have hnow : ∀ u, (t.packet e.stamp).current = some u → A u := by
      intro u hu
      rcases he : e.stamp with _ | stamp
      · rw [he] at hu
        exact hcurrent u hu
      · rw [he] at hu
        refine htimes e List.mem_cons_self u ?_
        rw [Event.time, he]
        exact hu
    intro s hs
    rcases List.mem_append.mp hs with hfirst | hlater
    · -- In this packet: its time is the packet's own, else the latest before it, else the epoch.
      have hseen : s.seen = (t.packet e.stamp).seen := by
        have hs := Option.mem_toList.mp hfirst
        unfold Tally.segment? at hs
        rcases hframe : Frame.segment e.link e.data (t.packet e.stamp).seen with fault | found
        · rw [hframe] at hs
          exact absurd hs (by simp)
        · rw [hframe] at hs
          obtain rfl : found = some s := hs
          exact seen_segment hframe
      rw [hseen]
      unfold seen
      rcases hc : (t.packet e.stamp).current with _ | u
      · refine hepoch.resolve_right fun hall => ?_
        rcases he : e.stamp with _ | stamp
        · refine hall e List.mem_cons_self ?_
          rw [Event.time, he]
          rfl
        · rw [he] at hc
          exact absurd hc (by simp [packet])
      · exact hnow u hc
    · refine ih (t := t.after e) (fun u hu => hnow u ?_)
        (fun f hf => htimes f (List.mem_cons_of_mem e hf))
        (hepoch.imp_right fun hall f hf => hall f (List.mem_cons_of_mem e hf)) s hlater
      unfold after segment at hu
      split_ifs at hu <;> exact hu

/-! ## The run of an analysis -/

/-- A packet is counted, and its segment, if it has one, is recorded and fed. -/
theorem step_eq (p : Progress σ) (e : Event) :
    step p e =
      ⟨p.tally.after e, p.tracker.run ((p.tally.segment? e).toList.map .feed),
        recorded p.dump (p.tally.segment? e).toList⟩ := by
  unfold step Tally.after Tally.segment?
  dsimp only
  rcases Frame.segment e.link e.data (p.tally.packet e.stamp).seen with fault | _ | s <;> rfl

/-- All packets are counted, and their segments are recorded and fed in order. -/
theorem foldl_step_eq (p : Progress σ) (events : List Event) :
    events.foldl step p =
      ⟨events.foldl Tally.after p.tally, p.tracker.run ((p.tally.segmentsOf events).map .feed),
        recorded p.dump (p.tally.segmentsOf events)⟩ := by
  induction events generalizing p with
  | nil => rfl
  | cons e events ih =>
    have hfed : p.tracker.run ((p.tally.segmentsOf (e :: events)).map .feed) =
        (p.tracker.run ((p.tally.segment? e).toList.map .feed)).run
          (((p.tally.after e).segmentsOf events).map .feed) := by
      rw [Tally.segmentsOf, List.map_append]
      exact List.foldl_append
    have hrecorded : recorded p.dump (p.tally.segmentsOf (e :: events)) =
        recorded (recorded p.dump (p.tally.segment? e).toList)
          ((p.tally.after e).segmentsOf events) := List.foldl_append
    rw [List.foldl_cons, ih, step_eq, hfed, hrecorded]
    rfl

/-- **An analysis is a run of its tracker**, and the dump has no say in it. -/
theorem run_eq (tracker : Tracker) (dump : Option (Dump.Writer σ)) (events : List Event) :
    run tracker dump events =
      ⟨tallyOf events, tracker.run (callsOf events), recorded dump (segmentsOf events)⟩ := by
  have hlast : tracker.run (callsOf events) =
      (tracker.run ((segmentsOf events).map .feed)).flushAll := List.foldl_concat ..
  unfold run
  dsimp only
  rw [foldl_step_eq, hlast]
  rfl

/-! ## Counts -/

namespace Tally

variable {t : Tally}

end Tally

end FlowWatch.Analysis
