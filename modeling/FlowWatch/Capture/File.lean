/-
Capture files of either format.

The first four bytes tell the formats apart. A file whose beginning is no header of its format
cannot be opened; whatever goes wrong later ends the packets.
-/
import FlowWatch.Capture.Block

set_option autoImplicit false

namespace FlowWatch.Capture

/-- The packets of a source, and why they end, if not with the source itself. -/
structure Source where
  events : List Event
  stop : Option SourceError
  deriving DecidableEq, Repr

/-- All packets of a source are stamped in UTC. -/
def Source.InUtc (s : Source) : Prop := ∀ e ∈ s.events, e.InUtc

/-- Opens a capture file. -/
def openFile (bytes : List UInt8) : Except SourceError Source :=
  if bytes.length < 4 then .error .unreadable
  else if Frame.longAt bytes 0 == Block.typeSection then
    let w := Window.new bytes
    if Block.startsSection w then
      let (blocks, stop) := Block.read w
      .ok ⟨Block.events #[] blocks, stop⟩
    else .error (.malformed "pcapng reader init")
  else
    match LegacyFormat.ofBytes? bytes with
    | some f =>
      let (events, stop) := f.events bytes
      .ok ⟨events, stop⟩
    | none => .error (.malformed "pcap reader init")

end FlowWatch.Capture
