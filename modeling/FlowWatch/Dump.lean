/-
The capture dump: every segment on one line, its payload in hexadecimal below.

A line shows the endpoints, the time, the payload length, sequence and acknowledgment numbers and
the control bits in columns. With payloads, each sixteen bytes have an indented row of their own:
offset, bytes, and the printable ASCII characters among them.

An output takes lines one at a time and may refuse any of them; a refusal ends the segment at
hand.
-/
import FlowWatch.Segment
import FlowWatch.Time.Stamp

set_option autoImplicit false

namespace FlowWatch

open Text

namespace Dump

/-! ## Lines -/

/-- The names of the control bits that are set. -/
def flagText (f : TcpFlags) : List Char :=
  [' '].intercalate
    (([(f.syn, "SYN"), (f.fin, "FIN"), (f.rst, "RST"), (f.psh, "PSH"), (f.ack, "ACK")].filter
      (·.1)).map (·.2.toList))

/-- Both endpoints in columns. -/
def directionText (f : Flow) : List Char :=
  padRight 46 (padRight 21 f.sender.toList ++ " -> ".toList ++
    padRight 21 f.receiver.toList)

/-- The line of a segment. -/
def headlineChars (s : Segment) : List Char :=
  "TCP  ".toList ++ directionText s.flow ++
    " Time[ ".toList ++ padRight 30 (Instant.shown s.seen).toList ++
    " ] Len[ ".toList ++ padRight 4 (decimal s.payload.length) ++
    " ] Seq[ ".toList ++ padRight 10 (decimal s.seq.toNat) ++
    " ] Ack[ ".toList ++ padRight 10 (decimal s.ack.toNat) ++
    " ] Flag[ ".toList ++ flagText s.flags ++ " ]".toList

/-- The line of a segment. -/
def headline (s : Segment) : String := String.ofList (headlineChars s)

/-- A byte as a printable ASCII character, or a point. -/
def shownByte (b : UInt8) : Char :=
  if 0x20 ≤ b.toNat && b.toNat ≤ 0x7E then Char.ofNat b.toNat else '.'

/-- The bytes in a row. -/
def rowLength : Nat := 16

/-- A row for at most sixteen bytes at an offset. -/
def payloadRow (offset : Nat) (row : List UInt8) : List Char :=
  "    ".toList ++ padLeft '0' 4 (hexadecimal offset) ++ "  ".toList ++
    padRight 47 ([' '].intercalate (row.map hexByte)) ++ "  ".toList ++ row.map shownByte

/-- The rows of a payload from an offset on. -/
def payloadRows (offset : Nat) (bytes : List UInt8) : List (List Char) :=
  match bytes with
  | [] => []
  | b :: bs =>
    payloadRow offset ((b :: bs).take rowLength) ::
      payloadRows (offset + rowLength) ((b :: bs).drop rowLength)
termination_by bytes.length
decreasing_by simp only [rowLength, List.length_drop, List.length_cons]; omega

/-- The lines of a segment, without their line ends. -/
def lines (withPayload : Bool) (s : Segment) : List (List Char) :=
  headlineChars s :: if withPayload then payloadRows 0 s.payload else []

/-- A line with its end. -/
def terminated (line : List Char) : String := String.ofList (line ++ ['\n'])

/-! ## Outputs -/

/-- What text is written to. Both operations say whether they succeeded. -/
structure Output (σ : Type) where
  write : σ → String → σ × Bool
  flush : σ → σ × Bool

/-- An output that keeps everything and never refuses, newest text first. -/
def memory : Output (List String) where
  write s text := (text :: s, true)
  flush s := (s, true)

/-- The text a memory holds. -/
def memoryText (s : List String) : String := String.join s.reverse

/-- Writes lines until one is refused. -/
def writeLines {σ : Type} (out : Output σ) : σ → List (List Char) → σ × Bool
  | s, [] => (s, true)
  | s, line :: rest =>
    match out.write s (terminated line) with
    | (s, true) => writeLines out s rest
    -- The rest of the segment is given up, later segments are not.
    | (s, false) => (s, false)

/-- A dump in progress: where it goes, whether it shows payloads, and how far it got. -/
structure Writer (σ : Type) where
  output : Output σ
  withPayload : Bool
  state : σ

namespace Writer

variable {σ : Type}

/-- Records a segment and says whether all of it was taken. -/
def record (w : Writer σ) (segment : Segment) : Writer σ × Bool :=
  let (state, isWritten) := writeLines w.output w.state (lines w.withPayload segment)
  ({ w with state := state }, isWritten)

/-- Ends the dump and says whether that succeeded. -/
def flush (w : Writer σ) : Writer σ × Bool :=
  let (state, isFlushed) := w.output.flush w.state
  ({ w with state := state }, isFlushed)

end Writer

/-- A dump into memory. -/
def toMemory (withPayload : Bool) : Writer (List String) := ⟨memory, withPayload, []⟩

end Dump

end FlowWatch
