/-
Classic capture files, written and read.

A file counts time in nanoseconds and may be of either byte order; no record has interface fields. Whatever
packets are written, the same packets are read: their times, their link type and exactly their bytes.
-/
import FlowWatch.Capture.File
import FlowWatch.Proofs.Capture.Numbers
import FlowWatch.Proofs.Capture.Records

set_option autoImplicit false

namespace FlowWatch.Capture

/-- A frame to be written, and the time of its capture in nanoseconds. -/
structure Recording where
  time : Nat
  frame : List UInt8
  deriving DecidableEq, Repr

namespace Recording

/-- The whole seconds of the time fit 32 bits, and the frame fits the buffer with what a format puts
around it. -/
structure Fits (r : Recording) : Prop where
  time_lt : r.time / 1000000000 < 4294967296
  frame_lt : 32 + Block.padded r.frame.length < bufferSize

/-- The event that a frame makes. -/
def event (r : Recording) (link : Nat) (data : List UInt8) : Event :=
  ⟨some (.utc r.time), link, data⟩

variable {r : Recording}

theorem Fits.length_lt (h : r.Fits) : 32 + r.frame.length < bufferSize := by
  have hframe := h.frame_lt
  unfold Block.padded at hframe
  omega

/-- A time of 32-bit seconds is representable. -/
theorem Fits.instant?_eq (h : r.Fits) : instant? (r.time : Int) = some (r.time : Int) := by
  have htime := h.time_lt
  have hbounds : (-377705116800 * 1000000000 : Int) ≤ r.time ∧
      (r.time : Int) ≤ 253402300800 * 1000000000 - 1 := by omega
  exact if_pos ((Bool.and_eq_true _ _).mpr ⟨decide_eq_true hbounds.1, decide_eq_true hbounds.2⟩)

end Recording

namespace LegacyFormat

variable (o : ByteOrder) (link : Nat)

/-- The format of a file in nanoseconds. -/
def nanoseconds : LegacyFormat := ⟨o, true, link, false⟩

/-- The file header: the magic number, the version, two unused fields, the greatest length of a
packet, and the link type. -/
def headerBytes : List UInt8 :=
  o.longBytes 0xA1B23C4D ++ (o.wordBytes 2 ++ (o.wordBytes 4 ++ (o.longBytes 0 ++ (o.longBytes 0 ++
    (o.longBytes 65535 ++ o.longBytes link)))))

/-- A record: the seconds and the fraction, how much was captured, how much there was, and the frame. -/
def recordBytes (r : Recording) : List UInt8 :=
  o.longBytes (r.time / 1000000000) ++ (o.longBytes (r.time % 1000000000) ++
    (o.longBytes r.frame.length ++ (o.longBytes r.frame.length ++ r.frame)))

/-- A file of packets. -/
def fileBytes (rs : List Recording) : List UInt8 :=
  headerBytes o link ++ rs.flatMap (recordBytes o)

theorem length_headerBytes : (headerBytes o link).length = headerLength := by
  unfold headerBytes headerLength
  simp only [List.length_append, ByteOrder.length_longBytes, ByteOrder.length_wordBytes]

theorem length_recordBytes (r : Recording) : (recordBytes o r).length = 16 + r.frame.length := by
  unfold recordBytes
  simp only [List.length_append, ByteOrder.length_longBytes]
  omega

/-- The magic number stands in the byte order of the file. -/
theorem longAt_headerBytes (bs : List UInt8) :
    Frame.longAt (headerBytes o link ++ bs) 0 =
      match o with
      | .big => 0xA1B23C4D
      | .little => 0x4D3CB2A1 := by
  cases o <;>
    simp [headerBytes, ByteOrder.longBytes, ByteOrder.wordBytes, Frame.longAt, Frame.wordAt,
      Frame.byteAt]

theorem link_headerBytes {link : Nat} (hlink : link < 65536) (bs : List UInt8) :
    o.long (headerBytes o link ++ bs) 20 = link := by
  unfold headerBytes
  simp only [List.append_assoc]
  rw [o.long_append (i := 16) (by rw [o.length_longBytes]),
    o.long_append (i := 14) (by rw [o.length_wordBytes]),
    o.long_append (i := 12) (by rw [o.length_wordBytes]),
    o.long_append (i := 8) (by rw [o.length_longBytes]),
    o.long_append (i := 4) (by rw [o.length_longBytes])]
  exact o.long_field (by omega) (o.length_longBytes _).symm

/-- The header is read as it was written. -/
theorem ofBytes?_headerBytes {link : Nat} (hlink : link < 65536) (bs : List UInt8) :
    ofBytes? (headerBytes o link ++ bs) = some (nanoseconds o link) := by
  have hlong : ¬ (headerBytes o link ++ bs).length < headerLength := by
    rw [List.length_append, length_headerBytes]
    omega
  have hbmod : ((link : Nat) : Int).bmod 4294967296 = link := by
    rw [Int.bmod_eq_of_le] <;> omega
  have hfield := link_headerBytes o hlink bs
  have hmagic := longAt_headerBytes o link bs
  unfold ofBytes?
  rw [if_neg hlong, hmagic]
  cases o <;> dsimp only at hfield ⊢ <;> rw [hfield, hbmod] <;> rfl

/-- A record is read as it was written. -/
theorem record_recordBytes {link : Nat} {r : Recording} (hr : r.Fits) :
    Record (fun _ => (nanoseconds o link).scan) () (recordBytes o r) (r.event link r.frame) () := by
  have hlength := length_recordBytes o r
  have hfits := hr.length_lt
  have hbuffer : bufferSize = 65536 := rfl
  have hcaptured : ∀ rest, o.long (recordBytes o r ++ rest) 8 = r.frame.length := by
    intro rest
    unfold recordBytes
    simp only [List.append_assoc]
    rw [o.long_append (i := 4) (by rw [o.length_longBytes])]
    exact o.long_field (by omega) (o.length_longBytes _).symm
  refine ⟨by omega, by omega, fun buffered rest hle => ?_, fun buffered rest hlt => ?_⟩
  · have htime := hr.time_lt
    have hseconds : o.long (recordBytes o r ++ rest) 0 = r.time / 1000000000 := by
      unfold recordBytes
      rw [List.append_assoc, o.long_longBytes, Nat.mod_eq_of_lt htime]
    have hfraction : o.long (recordBytes o r ++ rest) 4 = r.time % 1000000000 := by
      unfold recordBytes
      simp only [List.append_assoc]
      exact o.long_field (by omega) (o.length_longBytes _).symm
    have hframe : Frame.sliceAt (recordBytes o r ++ rest) 16 r.frame.length = r.frame := by
      unfold recordBytes
      simp only [List.append_assoc]
      rw [Frame.sliceAt_append (i := 12) (by rw [o.length_longBytes]),
        Frame.sliceAt_append (i := 8) (by rw [o.length_longBytes]),
        Frame.sliceAt_append (i := 4) (by rw [o.length_longBytes]),
        Frame.sliceAt_append (i := 0) (by rw [o.length_longBytes]), Frame.sliceAt_self]
    have hinstant : secondsTime true (r.time / 1000000000) (r.time % 1000000000) =
        some (r.time : Int) := by
      unfold secondsTime
      rw [if_pos rfl, show ((r.time / 1000000000 : Nat) : Int) * 1000000000 +
        ((r.time % 1000000000 : Nat) : Int) = r.time by omega]
      exact hr.instant?_eq
    unfold scan recordHeaderLength nanoseconds
    dsimp only
    rw [if_neg Bool.false_ne_true, hcaptured, if_neg (by omega), if_neg (by omega), hseconds,
      hfraction, hframe, hinstant, ← hlength]
    rfl
  · unfold scan recordHeaderLength nanoseconds
    dsimp only
    rw [if_neg Bool.false_ne_true, hcaptured]
    by_cases hheader : buffered < 16
    · exact ⟨16, by omega, if_pos hheader⟩
    · exact ⟨16 + r.frame.length, by omega, by rw [if_neg hheader, if_pos (by omega)]⟩

/-- **A classic file is read as it was written.** -/
theorem openFile_fileBytes {link : Nat} (hlink : link < 65536) {rs : List Recording}
    (hrs : ∀ r ∈ rs, r.Fits) :
    openFile (fileBytes o link rs) = .ok ⟨rs.map fun r => r.event link r.frame, none⟩ := by
  have hheader := length_headerBytes o link
  have hlong : ¬ (fileBytes o link rs).length < 4 := by
    unfold fileBytes
    rw [List.length_append, hheader]
    unfold headerLength
    omega
  have hclassic : (Frame.longAt (fileBytes o link rs) 0 == Block.typeSection) = false := by
    have hmagic := longAt_headerBytes o link (rs.flatMap (recordBytes o))
    unfold fileBytes
    rw [hmagic]
    cases o <;> rfl
  have hrest : ((Window.new (fileBytes o link rs)).skip headerLength).rest =
      rs.flatMap (recordBytes o) := List.drop_left' hheader
  have hrecords : Records (fun _ => (nanoseconds o link).scan) ()
      (rs.flatMap (recordBytes o)) (rs.map fun r => r.event link r.frame) :=
    .flatMap (n := 16) (by decide) rfl fun r hr => record_recordBytes o (hrs r hr)
  have hevents : (nanoseconds o link).events (fileBytes o link rs) =
      (rs.map fun r => r.event link r.frame, none) :=
    Window.read_records _ (hrest ▸ hrecords) ((Window.Sound.new _).skip _)
  unfold openFile
  rw [if_neg hlong, hclassic, if_neg Bool.false_ne_true]
  unfold fileBytes at hevents ⊢
  rw [ofBytes?_headerBytes o hlink]
  dsimp only
  rw [hevents]

end LegacyFormat

end FlowWatch.Capture
