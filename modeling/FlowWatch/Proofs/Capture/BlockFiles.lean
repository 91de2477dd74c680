/-
Block-structured capture files, written and read.

A file is one section with one interface that counts time in nanoseconds, and its packets. A block is read
as what its body is, once its length stands at both of its ends; what a body is, is told for each of the
three types on its own. Times and link types are read as they were written. The bytes of a packet are read
together with the zeros that fill it up to a multiple of four.
-/
import FlowWatch.Proofs.Capture.LegacyFiles
import Mathlib.Tactic.SplitIfs

set_option autoImplicit false

namespace FlowWatch.Capture

namespace Block

variable (o : ByteOrder) (link : Nat)

/-! ## Writing -/

/-- A block: its type, its length, its body, and its length again. -/
def blockBytes (type : Nat) (body : List UInt8) : List UInt8 :=
  o.longBytes type ++ (o.longBytes (12 + body.length) ++ (body ++ o.longBytes (12 + body.length)))

/-- The body of a section header: the byte order, the version, and a length that is not told. -/
def sectionBody : List UInt8 :=
  o.longBytes 0x1A2B3C4D ++ (o.wordBytes 1 ++ (o.wordBytes 0 ++ List.replicate 8 255))

/-- The body of an interface description: the link type, the greatest length of a packet, and the
resolution of times as the only option. -/
def interfaceBody : List UInt8 :=
  o.wordBytes link ++ (o.wordBytes 0 ++ (o.longBytes 65535 ++
    (o.wordBytes 9 ++ (o.wordBytes 1 ++ ([9, 0, 0, 0] ++ (o.wordBytes 0 ++ o.wordBytes 0))))))

/-- The zeros behind a frame. -/
def padding (frame : List UInt8) : List UInt8 := List.replicate ((4 - frame.length % 4) % 4) 0

/-- The body of a packet: its interface, the two halves of its time, how much was captured, how much
there was, and the frame. -/
def packetBody (r : Recording) : List UInt8 :=
  o.longBytes 0 ++ (o.longBytes (r.time / 4294967296) ++ (o.longBytes (r.time % 4294967296) ++
    (o.longBytes r.frame.length ++ (o.longBytes r.frame.length ++ (r.frame ++ padding r.frame)))))

/-- A file of packets. -/
def fileBytes (rs : List Recording) : List UInt8 :=
  blockBytes o typeSection (sectionBody o) ++ (blockBytes o typeInterface (interfaceBody o link) ++
    rs.flatMap fun r => blockBytes o typePacket (packetBody o r))

/-! ## Blocks -/

theorem length_blockBytes (type : Nat) (body : List UInt8) :
    (blockBytes o type body).length = 12 + body.length := by
  unfold blockBytes
  simp only [List.length_append, ByteOrder.length_longBytes]
  omega

theorem lookAhead_le (type : Nat) : lookAhead type ≤ minimumLength type := by
  unfold lookAhead
  split_ifs with h
  · rw [beq_iff_eq.mp h]
    decide
  · exact Nat.le_refl _

/-- A block whose body is known is read once it is there, and no more is asked for before. -/
theorem scanAs_blockBytes {type : Nat} {body : List UInt8} {b : Block}
    (hbody : Block.body o type body = .block b) (hmin : minimumLength type ≤ 12 + body.length)
    (hfits : 12 + body.length < bufferSize) (rest : List UInt8) (buffered : Nat) :
    (12 + body.length ≤ buffered →
      scanAs o buffered (blockBytes o type body ++ rest) type = .record b (12 + body.length)) ∧
    (buffered < 12 + body.length → ∃ n ≤ 12 + body.length,
      scanAs o buffered (blockBytes o type body ++ rest) type = .wants n) := by
  have hbuffer : bufferSize = 65536 := rfl
  have hlook := lookAhead_le type
  have hlength : o.long (blockBytes o type body ++ rest) 4 = 12 + body.length := by
    unfold blockBytes
    simp only [List.append_assoc]
    exact o.long_field (by omega) (o.length_longBytes _).symm
  have hslice : Frame.sliceAt (blockBytes o type body ++ rest) 8 (12 + body.length - 12) = body := by
    unfold blockBytes
    simp only [List.append_assoc]
    rw [Frame.sliceAt_append (i := 4) (by rw [o.length_longBytes]),
      Frame.sliceAt_append (i := 0) (by rw [o.length_longBytes]), Nat.add_sub_cancel_left,
      Frame.sliceAt_self]
  have hclosing : o.long (blockBytes o type body ++ rest) (12 + body.length - 4) =
      12 + body.length := by
    unfold blockBytes
    simp only [List.append_assoc]
    rw [o.long_append (i := 4 + body.length) (by rw [o.length_longBytes]; omega),
      o.long_append (i := body.length) (by rw [o.length_longBytes])]
    exact o.long_field (by omega) rfl
  unfold scanAs need
  dsimp only
  rw [hlength, if_neg (Nat.not_lt.mpr hmin)]
  refine ⟨fun hle => ?_, fun hlt => ?_⟩
  · -- The body comes before the closing length: a body that asks for more would never get there.
    rw [if_neg (by omega), if_neg (by omega), if_neg (by omega)]
    unfold scanWhole
    rw [hslice, hbody]
    dsimp only
    rw [hclosing, bne_self_eq_false, Bool.and_false, if_neg Bool.false_ne_true]
  · split_ifs with h1 h2
    · exact ⟨_, by omega, rfl⟩
    · exact ⟨_, by omega, rfl⟩
    · exact ⟨_, Nat.le_refl _, rfl⟩

/-- What is read of a block before the byte order behind it is settled. -/
def scanBlock (order : ByteOrder) (buffered : Nat) (bs : List UInt8) : Scan Block :=
  need buffered 4
    (if order.long bs 0 == typeSection then scanSection buffered bs
    else scanAs order buffered bs (order.long bs 0))

theorem scan_of_record {order : ByteOrder} {buffered n : Nat} {bs : List UInt8} {b : Block}
    (h : scanBlock order buffered bs = .record b n) :
    scan order buffered bs = .record (b, orderAfter order b) n := by
  unfold scanBlock at h
  unfold scan
  dsimp only
  rw [h]

theorem scan_of_wants {order : ByteOrder} {buffered n : Nat} {bs : List UInt8}
    (h : scanBlock order buffered bs = .wants n) : scan order buffered bs = .wants n := by
  unfold scanBlock at h
  unfold scan
  dsimp only
  rw [h]

/-- The type has to be there first. -/
theorem scanBlock_of_lt {order : ByteOrder} {buffered : Nat} {bs : List UInt8}
    (h : buffered < 4) : scanBlock order buffered bs = .wants 4 := if_pos h

/-- A block in the byte order of its section. -/
theorem record_blockBytes {type : Nat} {body : List UInt8} {b : Block}
    (htype : type < 4294967296) (hsection : type ≠ typeSection)
    (hbody : Block.body o type body = .block b) (hmin : minimumLength type ≤ 12 + body.length)
    (hfits : 12 + body.length < bufferSize) :
    Record scan o (blockBytes o type body) b (orderAfter o b) := by
  have hlength := length_blockBytes o type body
  have hfield : ∀ rest, o.long (blockBytes o type body ++ rest) 0 = type := by
    intro rest
    unfold blockBytes
    rw [List.append_assoc, o.long_longBytes, Nat.mod_eq_of_lt htype]
  have hplain : (type == typeSection) ≠ true := fun h => hsection (beq_iff_eq.mp h)
  refine ⟨by omega, by omega, fun buffered rest hle => ?_, fun buffered rest hlt => ?_⟩
  · have hwhole := (scanAs_blockBytes o hbody hmin hfits rest buffered).1 (hlength ▸ hle)
    rw [hlength]
    refine scan_of_record ?_
    rw [scanBlock, hfield, if_neg hplain, need, if_neg (by omega), hwhole]
  · obtain ⟨n, hn, hpart⟩ :=
      (scanAs_blockBytes o hbody hmin hfits rest buffered).2 (hlength ▸ hlt)
    by_cases hfirst : buffered < 4
    · exact ⟨4, by omega, scan_of_wants (scanBlock_of_lt hfirst)⟩
    · refine ⟨n, by omega, scan_of_wants ?_⟩
      rw [scanBlock, hfield, if_neg hplain, need, if_neg hfirst, hpart]

/-! ## Section headers -/

theorem length_sectionBody : (sectionBody o).length = 16 := by
  cases o <;> rfl

/-- A section header tells its byte order itself. -/
theorem scanSection_sectionBody (buffered : Nat) (rest : List UInt8) :
    scanSection buffered (blockBytes o typeSection (sectionBody o) ++ rest) =
      need buffered 12
        (scanAs o buffered (blockBytes o typeSection (sectionBody o) ++ rest) typeSection) := by
  -- The magic number is taken from the bytes in one order, and tells whether that is the right one.
  have hmagic : Frame.longAt (blockBytes o typeSection (sectionBody o) ++ rest) 8 =
      Frame.longAt (o.longBytes 0x1A2B3C4D) 0 := by
    unfold blockBytes
    simp only [List.append_assoc]
    rw [Frame.longAt_append (i := 4) (by rw [o.length_longBytes]),
      Frame.longAt_append (i := 0) (by rw [o.length_longBytes])]
    cases o <;> rfl
  unfold scanSection
  rw [hmagic]
  cases o with
  | big =>
    have hnumber : Frame.longAt (ByteOrder.big.longBytes 0x1A2B3C4D) 0 = 0x1A2B3C4D := by decide
    rw [hnumber, if_pos (by decide)]
  | little =>
    have hnumber : Frame.longAt (ByteOrder.little.longBytes 0x1A2B3C4D) 0 = 0x4D3C2B1A := by decide
    rw [hnumber, if_neg (by decide), if_pos (by decide)]

theorem scanAs_sectionBody (buffered : Nat) (rest : List UInt8) :
    (28 ≤ buffered →
      scanAs o buffered (blockBytes o typeSection (sectionBody o) ++ rest) typeSection =
        .record (.section o) 28) ∧
    (buffered < 28 → ∃ n ≤ 28,
      scanAs o buffered (blockBytes o typeSection (sectionBody o) ++ rest) typeSection =
        .wants n) := by
  have hlength := length_sectionBody o
  have hbody : body o typeSection (sectionBody o) = .block (.section o) := rfl
  have hscan := scanAs_blockBytes o hbody (by rw [hlength]; decide) (by rw [hlength]; decide) rest
    buffered
  rw [hlength] at hscan
  exact hscan

/-- A section header is read whatever the byte order of the section before it. -/
theorem record_sectionBody (before : ByteOrder) :
    Record scan before (blockBytes o typeSection (sectionBody o)) (.section o) o := by
  have hbuffer : bufferSize = 65536 := rfl
  have hlength : (blockBytes o typeSection (sectionBody o)).length = 28 := by
    rw [length_blockBytes, length_sectionBody]
  have hfield : ∀ rest,
      before.long (blockBytes o typeSection (sectionBody o) ++ rest) 0 = typeSection := by
    intro rest
    -- The type of a section header reads the same from both ends.
    have hboth : o.longBytes typeSection = before.longBytes typeSection := by
      cases o <;> cases before <;> rfl
    have htype : typeSection % 4294967296 = typeSection := rfl
    unfold blockBytes
    rw [List.append_assoc, hboth, before.long_longBytes, htype]
  have hread : ∀ buffered rest,
      scanBlock before buffered (blockBytes o typeSection (sectionBody o) ++ rest) =
        need buffered 4 (need buffered 12 (scanAs o buffered
          (blockBytes o typeSection (sectionBody o) ++ rest) typeSection)) := by
    intro buffered rest
    rw [scanBlock, hfield, if_pos (beq_self_eq_true _), scanSection_sectionBody]
  refine ⟨by omega, by omega, fun buffered rest hle => ?_, fun buffered rest hlt => ?_⟩
  · rw [hlength] at hle ⊢
    refine scan_of_record ?_
    rw [hread, need, need, if_neg (by omega), if_neg (by omega),
      (scanAs_sectionBody o buffered rest).1 hle]
  · rw [hlength] at hlt ⊢
    obtain ⟨n, hn, hpart⟩ := (scanAs_sectionBody o buffered rest).2 hlt
    by_cases hfirst : buffered < 4
    · exact ⟨4, by omega, scan_of_wants (scanBlock_of_lt hfirst)⟩
    · by_cases hsecond : buffered < 12
      · refine ⟨12, by omega, scan_of_wants ?_⟩
        rw [hread, need, need, if_neg hfirst, if_pos hsecond]
      · refine ⟨n, hn, scan_of_wants ?_⟩
        rw [hread, need, need, if_neg hfirst, if_neg hsecond, hpart]

/-! ## Interfaces and packets -/

theorem length_interfaceBody : (interfaceBody o link).length = 20 := by
  unfold interfaceBody
  simp only [List.length_append, ByteOrder.length_longBytes, ByteOrder.length_wordBytes,
    List.length_cons, List.length_nil]

/-- The one option is the resolution, and the list of options is closed. -/
theorem options_interfaceBody :
    options o ((interfaceBody o link).drop 8) = [(9, [9, 0, 0, 0]), (0, [])] := by
  have hdrop : (interfaceBody o link).drop 8 =
      o.wordBytes 9 ++ (o.wordBytes 1 ++ ([9, 0, 0, 0] ++ (o.wordBytes 0 ++ o.wordBytes 0))) := by
    cases o <;> rfl
  rw [hdrop]
  cases o <;>
    simp [options, ByteOrder.wordBytes, ByteOrder.word, Frame.wordAt, Frame.byteAt, padded, lacking]

theorem body_interfaceBody {link : Nat} (hlink : link < 65536) :
    body o typeInterface (interfaceBody o link) = .block (.interface link 9 0) := by
  have hfield : o.word (interfaceBody o link) 0 = link := by
    unfold interfaceBody
    rw [o.word_wordBytes, Nat.mod_eq_of_lt hlink]
  have hoptions := options_interfaceBody o link
  unfold body
  rw [if_neg (by decide), if_pos (by decide), hoptions, hfield]
  rfl

theorem length_padding (frame : List UInt8) :
    (frame ++ padding frame).length = padded frame.length := by
  unfold padding padded
  rw [List.length_append, List.length_replicate]
  omega

theorem length_packetBody (r : Recording) :
    (packetBody o r).length = 20 + padded r.frame.length := by
  have hpadded := length_padding r.frame
  unfold packetBody
  simp only [List.length_append, ByteOrder.length_longBytes] at hpadded ⊢
  omega

theorem body_packetBody {r : Recording} (hr : r.Fits) :
    body o typePacket (packetBody o r) =
      .block (.packet 0 (r.time / 4294967296) (r.time % 4294967296)
        (r.frame ++ padding r.frame)) := by
  have hpadded := length_padding r.frame
  have hlength := hr.length_lt
  have htime := hr.time_lt
  have hbuffer : bufferSize = 65536 := rfl
  have hcaptured : o.long (packetBody o r) 12 = r.frame.length := by
    unfold packetBody
    rw [o.long_append (i := 8) (by rw [o.length_longBytes]),
      o.long_append (i := 4) (by rw [o.length_longBytes])]
    exact o.long_field (by omega) (o.length_longBytes _).symm
  have hinterface : o.long (packetBody o r) 0 = 0 := o.long_longBytes 0
  have hhigh : o.long (packetBody o r) 4 = r.time / 4294967296 :=
    o.long_field (by omega) (o.length_longBytes _).symm
  have hlow : o.long (packetBody o r) 8 = r.time % 4294967296 := by
    unfold packetBody
    rw [o.long_append (i := 4) (by rw [o.length_longBytes])]
    exact o.long_field (by omega) (o.length_longBytes _).symm
  have hdata : (packetBody o r).drop 20 = r.frame ++ padding r.frame := by
    cases o <;> rfl
  have hslice : Frame.sliceAt (packetBody o r) 20 (padded r.frame.length) =
      r.frame ++ padding r.frame := by
    unfold Frame.sliceAt
    rw [hdata, ← hpadded, List.take_length]
  have hnone : lacking (padded r.frame.length) ((packetBody o r).drop 20) = 0 := by
    unfold lacking
    rw [hdata, ← hpadded, List.take_length, Nat.sub_self]
  unfold body
  rw [if_neg (by decide), if_neg (by decide), if_pos (by decide)]
  dsimp only
  rw [hcaptured, hnone, if_neg (by unfold maxField; omega), if_neg (by decide), hinterface, hhigh,
    hlow, hslice]

/-! ## Files -/

/-- A count of nanoseconds is the time itself. -/
theorem unitsTime_eq {r : Recording} (hr : r.Fits) (link : Frame.LinkType) :
    unitsTime (clock link 9 0) (r.time / 4294967296) (r.time % 4294967296) =
      some (r.time : Int) := by
  have hunits : r.time / 4294967296 * 4294967296 + r.time % 4294967296 = r.time := by omega
  have hclock : (clock link 9 0).unitsPerSecond = 1000000000 := rfl
  have hoffset : (clock link 9 0).offsetSeconds = 0 := rfl
  have hcount : ((r.time / 1000000000 : Nat) + (0 : Int)) * 1000000000 +
      ((r.time % 1000000000 * 1000000000 / 1000000000 : Nat) : Int) = r.time := by omega
  unfold unitsTime
  rw [hclock, hoffset, if_neg (by decide), hunits]
  dsimp only
  rw [hcount]
  exact hr.instant?_eq

/-- The packets behind the description of their interface. -/
theorem events_packets {rs : List Recording} (hrs : ∀ r ∈ rs, r.Fits) (link : Frame.LinkType) :
    events #[clock link 9 0] (rs.map fun r => .packet 0 (r.time / 4294967296)
      (r.time % 4294967296) (r.frame ++ padding r.frame)) =
        rs.map fun r => ⟨some (.utc r.time), link, r.frame ++ padding r.frame⟩ := by
  induction rs with
  | nil => rfl
  | cons r rs ih =>
    rw [List.map_cons, List.map_cons, events, ih fun s hs => hrs s (List.mem_cons_of_mem r hs)]
    have hclock : #[clock link 9 0][0]?.getD Clock.default = clock link 9 0 := rfl
    rw [hclock, unitsTime_eq (hrs r List.mem_cons_self)]
    rfl

/-- The blocks of a file. -/
theorem records_fileBytes {link : Nat} (hlink : link < 65536) {rs : List Recording}
    (hrs : ∀ r ∈ rs, r.Fits) (before : ByteOrder) :
    Records scan before (fileBytes o link rs) (.section o :: .interface link 9 0 ::
      rs.map fun r => .packet 0 (r.time / 4294967296) (r.time % 4294967296)
        (r.frame ++ padding r.frame)) := by
  have hinterface : Record scan o (blockBytes o typeInterface (interfaceBody o link))
      (.interface link 9 0) o :=
    record_blockBytes o (by decide) (by decide) (body_interfaceBody o hlink)
      (by rw [length_interfaceBody]; decide) (by rw [length_interfaceBody]; decide)
  refine .cons (record_sectionBody o before) (.cons hinterface ?_)
  refine .flatMap (n := 4) (by decide) rfl fun r hr => ?_
  have hframe := (hrs r hr).frame_lt
  refine record_blockBytes o (by decide) (by decide) (body_packetBody o (hrs r hr)) ?_ ?_
  · have hmin : minimumLength typePacket = 32 := rfl
    rw [length_packetBody, hmin]
    omega
  · rw [length_packetBody]
    omega

/-- **A block-structured file is read as it was written**, with the padding of each frame. -/
theorem openFile_fileBytes {link : Nat} (hlink : link < 65536) {rs : List Recording}
    (hrs : ∀ r ∈ rs, r.Fits) :
    openFile (fileBytes o link rs) =
      .ok ⟨rs.map fun r => r.event link (r.frame ++ padding r.frame), none⟩ := by
  have hlong : 28 ≤ (fileBytes o link rs).length := by
    unfold fileBytes
    rw [List.length_append, length_blockBytes, length_sectionBody]
    omega
  have htype : Frame.longAt (fileBytes o link rs) 0 = typeSection := by
    have hboth : o.longBytes typeSection = ByteOrder.big.longBytes typeSection := by
      cases o <;> rfl
    unfold fileBytes blockBytes
    rw [List.append_assoc, hboth]
    exact ByteOrder.big.long_longBytes typeSection
  -- The first block is looked at once to settle the format, and read again with the others.
  have hstarts : startsSection (Window.new (fileBytes o link rs)) = true := by
    have hbuffered : 28 ≤ (Window.new (fileBytes o link rs)).buffered :=
      Nat.le_min.mpr ⟨by decide, hlong⟩
    have hscan := scanSection_sectionBody o (Window.new (fileBytes o link rs)).buffered
      (blockBytes o typeInterface (interfaceBody o link) ++
        rs.flatMap fun r => blockBytes o typePacket (packetBody o r))
    rw [(scanAs_sectionBody o _ _).1 hbuffered, need, if_neg (by omega)] at hscan
    unfold startsSection
    rw [show scanSection _ (Window.new (fileBytes o link rs)).rest = _ from hscan]
  have hread : read (Window.new (fileBytes o link rs)) = (_, none) :=
    Window.read_records _ (records_fileBytes o hlink hrs .little) (.new _)
  unfold openFile
  rw [if_neg (by omega), htype, if_pos (beq_self_eq_true _)]
  dsimp only
  rw [hstarts, if_pos rfl, hread]
  exact congrArg (fun found => Except.ok (Source.mk found none)) (events_packets hrs _)

end Block

end FlowWatch.Capture
