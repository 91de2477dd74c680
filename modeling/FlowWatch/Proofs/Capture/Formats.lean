/-
The two capture formats side by side.

The same packets, written in either format and either byte order, are read as events with the same times
and the same link type, in the same order. The frames differ where the one format pads them. Whatever a
file of either format holds, its packets are stamped in UTC and within the representable years.
-/
import FlowWatch.Proofs.Capture.BlockFiles

set_option autoImplicit false

namespace FlowWatch.Capture

theorem Block.padding_eq_nil {frame : List UInt8} :
    padding frame = [] ↔ frame.length % 4 = 0 := by
  unfold padding
  rw [List.replicate_eq_nil_iff]
  omega

/-- **What the two formats make of the same packets.** Every packet is one event, in order, with the time
that was written and the link type of the file. From a classic file it has exactly the bytes of the frame,
from a block-structured file those and the zeros of the padding. So the two agree on all packets if and only
if no frame is padded. -/
theorem formats_agree_up_to_padding (o o' : ByteOrder) {link : Nat} (hlink : link < 65536)
    {rs : List Recording} (hrs : ∀ r ∈ rs, r.Fits) :
    openFile (LegacyFormat.fileBytes o link rs) =
        .ok ⟨rs.map fun r => r.event link r.frame, none⟩ ∧
      openFile (Block.fileBytes o' link rs) =
        .ok ⟨rs.map fun r => r.event link (r.frame ++ Block.padding r.frame), none⟩ ∧
      (openFile (LegacyFormat.fileBytes o link rs) = openFile (Block.fileBytes o' link rs) ↔
        ∀ r ∈ rs, r.frame.length % 4 = 0) := by
  have hclassic := LegacyFormat.openFile_fileBytes o hlink hrs
  have hblocks := Block.openFile_fileBytes o' hlink hrs
  refine ⟨hclassic, hblocks, ?_⟩
  rw [hclassic, hblocks, Except.ok.injEq, Source.mk.injEq, and_iff_left rfl, List.map_inj_left]
  refine forall₂_congr fun r _ => ?_
  rw [← Block.padding_eq_nil, Recording.event, Recording.event, Event.mk.injEq]
  constructor
  · exact fun h => List.self_eq_append_right.mp h.2.2
  · exact fun h => ⟨rfl, rfl, List.self_eq_append_right.mpr h⟩

/-- Two frames, of which only the first fills its record. -/
theorem formats_agree_up_to_padding_two :
    let rs : List Recording :=
      [⟨1700000000000000005, [170, 187, 204, 221]⟩, ⟨1700000000123456789, [170, 187, 204]⟩]
    openFile (LegacyFormat.fileBytes .little 1 rs) = .ok ⟨[
        ⟨some (.utc 1700000000000000005), 1, [170, 187, 204, 221]⟩,
        ⟨some (.utc 1700000000123456789), 1, [170, 187, 204]⟩], none⟩ ∧
      openFile (Block.fileBytes .big 1 rs) = .ok ⟨[
        ⟨some (.utc 1700000000000000005), 1, [170, 187, 204, 221]⟩,
        ⟨some (.utc 1700000000123456789), 1, [170, 187, 204, 0]⟩], none⟩ := by
  intro rs
  have hfits : ∀ r ∈ rs, r.Fits := by
    intro r hr
    rcases List.mem_cons.mp hr with rfl | hr
    · exact ⟨by decide, by decide⟩
    · rw [List.mem_singleton.mp hr]
      exact ⟨by decide, by decide⟩
  have hlink : 1 < 65536 := by decide
  obtain ⟨hclassic, hblocks, -⟩ := formats_agree_up_to_padding .little .big hlink hfits
  exact ⟨hclassic, hblocks⟩

/-- A frame of one byte comes out of a block-structured file as four. -/
theorem padded_frame_of_one_byte :
    let r : Recording := ⟨1700000000000000005, [170]⟩
    let bytes : List UInt8 :=
      [10, 13, 13, 10, 0, 0, 0, 28, 26, 43, 60, 77, 0, 1, 0, 0, 255, 255, 255, 255, 255, 255, 255,
        255, 0, 0, 0, 28,
        0, 0, 0, 1, 0, 0, 0, 32, 0, 1, 0, 0, 0, 0, 255, 255, 0, 9, 0, 1, 9, 0, 0, 0, 0, 0, 0, 0,
        0, 0, 0, 32,
        0, 0, 0, 6, 0, 0, 0, 36, 0, 0, 0, 0, 23, 151, 156, 254, 54, 42, 0, 5, 0, 0, 0, 1, 0, 0, 0, 1,
        170, 0, 0, 0, 0, 0, 0, 36]
    bytes = Block.fileBytes .big 1 [r] ∧
      openFile bytes = .ok ⟨[⟨some (.utc 1700000000000000005), 1, [170, 0, 0, 0]⟩], none⟩ ∧
      openFile (LegacyFormat.fileBytes .little 1 [r]) =
        .ok ⟨[⟨some (.utc 1700000000000000005), 1, [170]⟩], none⟩ := by
  intro r bytes
  have hbytes : bytes = Block.fileBytes .big 1 [r] := by decide
  have hfits : ∀ s ∈ [r], s.Fits := by
    intro s hs
    rw [List.mem_singleton.mp hs]
    exact ⟨by decide, by decide⟩
  refine ⟨hbytes, ?_, LegacyFormat.openFile_fileBytes .little (by decide) hfits⟩
  rw [hbytes]
  exact Block.openFile_fileBytes .big (by decide) hfits

/-! ## Stamps -/

/-- The stamp of an event is in UTC, at an instant that is representable. -/
def Event.IsFiled (e : Event) : Prop :=
  ∀ s, e.stamp = some s → s.offset = 0 ∧ Instant.isRepresentable s.instant = true

/-- A count that has an instant at all has a representable one. -/
theorem Event.isFiled_of_instant? {time : Option Instant} (link : Frame.LinkType) (data : List UInt8)
    (h : ∀ t, time = some t → ∃ n, instant? n = some t) : Event.IsFiled ⟨time, link, data⟩ := by
  intro s hs
  obtain ⟨t, ht, rfl⟩ := Option.map_eq_some_iff.mp hs
  obtain ⟨n, hn⟩ := h t ht
  unfold instant? at hn
  split_ifs at hn with hwithin
  exact ⟨rfl, Option.some.inj hn ▸ hwithin⟩

theorem LegacyFormat.isFiled_events (f : LegacyFormat) (bytes : List UInt8) :
    ∀ e ∈ (f.events bytes).1, e.IsFiled := by
  refine Window.forall_readFrom (fun _ buffered bs e _ n hscan => ?_) _ _ _ _
  unfold scan at hscan
  dsimp only at hscan
  split_ifs at hscan
  injection hscan with hrecord
  rw [← (Prod.mk.inj hrecord).1]
  exact Event.isFiled_of_instant? _ _ fun t ht => ⟨_, ht⟩

theorem Block.isFiled_events (interfaces : Array Clock) (blocks : List Block) :
    ∀ e ∈ events interfaces blocks, e.IsFiled := by
  induction blocks generalizing interfaces with
  | nil => exact fun _ he => absurd he List.not_mem_nil
  | cons b blocks ih =>
    cases b with
    | packet id high low data =>
      intro e he
      rcases List.mem_cons.mp he with rfl | hlater
      · refine Event.isFiled_of_instant? _ _ fun t ht => ?_
        unfold unitsTime at ht
        split_ifs at ht
        exact ⟨_, ht⟩
      · exact ih interfaces e hlater
    | _ => exact ih _

/-- **The packets of a capture file are stamped in UTC**, within the representable years. -/
theorem stamped_openFile {bytes : List UInt8} {source : Source} (h : openFile bytes = .ok source) :
    source.InUtc ∧
      ∀ e ∈ source.events, ∀ t, e.time = some t → Instant.isRepresentable t = true := by
  have hfiled : ∀ e ∈ source.events, e.IsFiled := by
    unfold openFile at h
    dsimp only at h
    split_ifs at h
    · obtain rfl := Except.ok.inj h
      exact Block.isFiled_events #[] _
    · rcases hf : LegacyFormat.ofBytes? bytes with _ | f
      · rw [hf] at h
        exact absurd h (by simp)
      · rw [hf] at h
        obtain rfl := Except.ok.inj h
        exact f.isFiled_events bytes
  refine ⟨fun e he s hs => (hfiled e he s hs).1, fun e he t ht => ?_⟩
  obtain ⟨s, hs, rfl⟩ := Option.map_eq_some_iff.mp ht
  exact (hfiled e he s hs).2

end FlowWatch.Capture
