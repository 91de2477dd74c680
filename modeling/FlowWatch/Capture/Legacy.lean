/-
Classic capture files.

A file header of 24 bytes tells the byte order, the unit of time and the link type. Each record
has a header of sixteen bytes, or of 24 in the variant with interface fields, and then the
captured bytes.
-/
import FlowWatch.Capture.Clock
import FlowWatch.Capture.Window

set_option autoImplicit false

namespace FlowWatch.Capture

/-- A byte order. -/
inductive ByteOrder where
  | little
  | big
  deriving DecidableEq, Repr

namespace ByteOrder

/-- The 16-bit number at a place. -/
def word (o : ByteOrder) (bs : List UInt8) (i : Nat) : Nat :=
  match o with
  | .big => Frame.wordAt bs i
  | .little => Frame.byteAt bs i + 256 * Frame.byteAt bs (i + 1)

/-- The 32-bit number at a place. -/
def long (o : ByteOrder) (bs : List UInt8) (i : Nat) : Nat :=
  match o with
  | .big => 65536 * o.word bs i + o.word bs (i + 2)
  | .little => o.word bs i + 65536 * o.word bs (i + 2)

end ByteOrder

/-- What the header of a classic capture file tells. -/
structure LegacyFormat where
  order : ByteOrder
  nanosecond : Bool
  link : Frame.LinkType
  /-- Records have interface fields. -/
  extended : Bool
  deriving DecidableEq, Repr

namespace LegacyFormat

/-- The length of the file header. -/
def headerLength : Nat := 24

/-- Reads the file header. -/
def ofBytes? (bs : List UInt8) : Option LegacyFormat :=
  if bs.length < headerLength then none
  else
    -- The magic number is compared as it stands in the file, so it tells the byte order too.
    let link (o : ByteOrder) : Frame.LinkType := ((o.long bs 20 : Nat) : Int).bmod 4294967296
    let magic := Frame.longAt bs 0
    if magic == 0xA1B2C3D4 then some ⟨.big, false, link .big, false⟩
    else if magic == 0xA1B23C4D then some ⟨.big, true, link .big, false⟩
    else if magic == 0xD4C3B2A1 then some ⟨.little, false, link .little, false⟩
    else if magic == 0x4D3CB2A1 then some ⟨.little, true, link .little, false⟩
    else if magic == 0x34CDB2A1 then some ⟨.little, false, link .little, true⟩
    else none

/-- The length of a record header. -/
def recordHeaderLength (f : LegacyFormat) : Nat := if f.extended then 24 else 16

/-- Reads a record. -/
def scan (f : LegacyFormat) (buffered : Nat) (bs : List UInt8) : Scan (Event × Unit) :=
  if buffered < f.recordHeaderLength then .wants f.recordHeaderLength
  else
    let length := f.recordHeaderLength + f.order.long bs 8
    if buffered < length then .wants length
    else
      let time := secondsTime f.nanosecond (f.order.long bs 0) (f.order.long bs 4)
      .record (⟨time, f.link, Frame.sliceAt bs f.recordHeaderLength (f.order.long bs 8)⟩, ()) length

/-- Reads the records behind the file header. -/
def events (f : LegacyFormat) (bytes : List UInt8) : List Event × Option SourceError :=
  ((Window.new bytes).skip headerLength).read "pcap reader next" (fun _ => f.scan) ()

end LegacyFormat

end FlowWatch.Capture
