/-
From captured frames to TCP segments.

A frame is an Ethernet frame or a bare IP packet. Ethernet may carry up to two VLAN tags. Lengths
are taken from the IP header, so bytes that pad the frame never become payload; a header or a
length that does not fit its container makes the frame malformed. A frame without TCP is no error.
-/
import FlowWatch.Segment

set_option autoImplicit false

namespace FlowWatch

/-- Why a frame has no segment to offer. -/
inductive FrameError where
  /-- A header or a length does not fit. -/
  | malformed
  /-- An Ethernet frame that carries neither IPv4 nor IPv6. -/
  | noNetworkLayer
  deriving DecidableEq, Repr

namespace Frame

/-! ## Reading numbers -/

/-- The byte at a place, zero beyond the end. -/
def byteAt (bs : List UInt8) (i : Nat) : Nat := (bs[i]?.getD 0).toNat

/-- A 16-bit number, high byte first. -/
def wordAt (bs : List UInt8) (i : Nat) : Nat := 256 * byteAt bs i + byteAt bs (i + 1)

/-- A 32-bit number, high byte first. -/
def longAt (bs : List UInt8) (i : Nat) : Nat := 65536 * wordAt bs i + wordAt bs (i + 2)

/-- The bytes at places `i` to `i + n`. -/
def sliceAt (bs : List UInt8) (i n : Nat) : List UInt8 := (bs.drop i).take n

/-- Whether fewer than `n` bytes are there. -/
def lacks (n : Nat) (bs : List UInt8) : Bool := (bs.take n).length < n

/-! ## The network layer -/

/-- An IP packet: the protocol of its payload, and whether that is only a fragment. -/
structure Packet where
  src : Address
  dst : Address
  protocol : Nat
  fragment : Bool
  payload : List UInt8
  deriving DecidableEq, Repr

/-- The protocol numbers this library knows. -/
def protocolIcmp : Nat := 1
def protocolTcp : Nat := 6
def protocolUdp : Nat := 17
def protocolIcmp6 : Nat := 58
def protocolHopByHop : Nat := 0
def protocolRouting : Nat := 43
def protocolFragment : Nat := 44
def protocolAuthentication : Nat := 51
def protocolDestination : Nat := 60

/-- An extension header: the protocol that follows, and the bytes after it. -/
abbrev Extension := Nat × List UInt8

/-- An authentication header, whose length is in units of four bytes. -/
def authentication? (bs : List UInt8) : Option Extension :=
  if lacks 12 bs || byteAt bs 1 == 0 || lacks (4 * (byteAt bs 1 + 2)) bs then none
  else some (byteAt bs 0, bs.drop (4 * (byteAt bs 1 + 2)))

/-- An options header, whose length is in units of eight bytes. -/
def options? (bs : List UInt8) : Option Extension :=
  if lacks 8 bs || lacks (8 * (byteAt bs 1 + 1)) bs then none
  else some (byteAt bs 0, bs.drop (8 * (byteAt bs 1 + 1)))

/-- Whether the offset field of a fragment header has any bit set, the two of value 64 and 32 in its
second byte apart. -/
def splits (bs : List UInt8) : Bool :=
  byteAt bs 2 != 0 || 128 ≤ byteAt bs 3 || byteAt bs 3 % 32 != 0

/-- A fragment header, and whether it tells of more than one fragment. -/
def fragment? (bs : List UInt8) : Option (Extension × Bool) :=
  if lacks 8 bs then none else some ((byteAt bs 0, bs.drop 8), splits bs)

/-- Reads an IPv4 packet. -/
def ipv4? (bs : List UInt8) : Option Packet := do
  let headerLength := 4 * (byteAt bs 0 % 16)
  let totalLength := wordAt bs 2
  if bs.length < 20 || byteAt bs 0 / 16 != 4 || headerLength < 20 || bs.length < headerLength ||
      totalLength < headerLength || bs.length < totalLength then none
  else
    let src ← IPv4.ofOctets? (sliceAt bs 12 4)
    let dst ← IPv4.ofOctets? (sliceAt bs 16 4)
    let body := sliceAt bs headerLength (totalLength - headerLength)
    -- More fragments follow, or this one does not start at offset zero.
    let isFragment := wordAt bs 6 % 16384 != 0
    let (protocol, payload) ←
      if byteAt bs 9 == protocolAuthentication then authentication? body
      else some (byteAt bs 9, body)
    some ⟨.v4 src, .v4 dst, protocol, isFragment, payload⟩

/-- Walks the extension headers of an IPv6 packet; the fuel bounds their number. -/
def extensions? : Nat → Bool → Extension → Option (Extension × Bool)
  | 0, _, _ => none
  | fuel + 1, isFragment, (protocol, bs) =>
    -- Options for every hop are read before this walk begins and may not come later.
    if protocol == protocolHopByHop then none
    else if protocol == protocolDestination || protocol == protocolRouting then do
      extensions? fuel isFragment (← options? bs)
    else if protocol == protocolFragment then do
      let (next, more) ← fragment? bs
      extensions? fuel (isFragment || more) next
    else if protocol == protocolAuthentication then do
      extensions? fuel isFragment (← authentication? bs)
    else some ((protocol, bs), isFragment)

/-- The payload behind all extension headers. Hop-by-hop options are allowed only in front. -/
def ipv6Payload? (protocol : Nat) (body : List UInt8) : Option (Extension × Bool) := do
  let start ← if protocol == protocolHopByHop then options? body else some (protocol, body)
  extensions? (body.length + 1) false start

/-- Reads an IPv6 packet; a payload length of zero stands for all that is there. -/
def ipv6? (bs : List UInt8) : Option Packet := do
  let payloadLength := wordAt bs 4
  if bs.length < 40 || byteAt bs 0 / 16 != 6 || bs.length < 40 + payloadLength then none
  else
    let src ← IPv6.ofOctets? (sliceAt bs 8 16)
    let dst ← IPv6.ofOctets? (sliceAt bs 24 16)
    let body := if payloadLength == 0 then bs.drop 40 else sliceAt bs 40 payloadLength
    let ((protocol, payload), isFragment) ← ipv6Payload? (byteAt bs 6) body
    some ⟨.v6 src, .v6 dst, protocol, isFragment, payload⟩

/-- Reads a packet of either version. -/
def ip? (bs : List UInt8) : Option Packet :=
  if bs.isEmpty then none
  else if byteAt bs 0 / 16 == 4 then ipv4? bs
  else if byteAt bs 0 / 16 == 6 then ipv6? bs
  else none

/-! ## The link layer -/

/-- The Ethernet types this library knows. -/
def typeIpv4 : Nat := 0x0800
def typeIpv6 : Nat := 0x86DD

/-- The Ethernet types that announce a VLAN tag. -/
def isVlanType (t : Nat) : Bool := t == 0x8100 || t == 0x88A8 || t == 0x9100

/-- The type and the bytes behind up to `tags` VLAN tags. -/
def untag : Nat → Nat × List UInt8 → Except FrameError (Nat × List UInt8)
  | 0, x => .ok x
  | tags + 1, (type, bs) =>
    if isVlanType type then
      if bs.length < 4 then .error .malformed else untag tags (wordAt bs 2, bs.drop 4)
    else .ok (type, bs)

/-- A value that has to be there. -/
def wellFormed {α : Type} : Option α → Except FrameError α
  | some a => .ok a
  | none => .error .malformed

/-- The packet in an Ethernet frame. -/
def ethernetPacket (bs : List UInt8) : Except FrameError Packet := do
  if bs.length < 14 then .error .malformed
  else
    let (type, body) ← untag 2 (wordAt bs 12, bs.drop 14)
    if type == typeIpv4 then wellFormed (ipv4? body)
    else if type == typeIpv6 then wellFormed (ipv6? body)
    else .error .noNetworkLayer

/-! ## The transport layer -/

/-- Whether a UDP datagram fits its packet; a length of zero stands for all that is there. -/
def isUdp (bs : List UInt8) : Bool :=
  8 ≤ bs.length && wordAt bs 4 ≤ bs.length && (wordAt bs 4 == 0 || 8 ≤ wordAt bs 4)

/-- Whether an ICMP message is complete; a timestamp message has exactly twenty bytes. -/
def isIcmp (bs : List UInt8) : Bool :=
  8 ≤ bs.length &&
    ((byteAt bs 0 != 13 && byteAt bs 0 != 14) || byteAt bs 1 != 0 || bs.length == 20)

/-- Whether an ICMPv6 message is complete. -/
def isIcmp6 (bs : List UInt8) : Bool := 8 ≤ bs.length

/-- Reads a TCP segment between two addresses. -/
def tcp? (src dst : Address) (seen : Instant) (bs : List UInt8) : Option Segment :=
  let headerLength := 4 * (byteAt bs 12 / 16)
  if bs.length < 20 || headerLength < 20 || bs.length < headerLength then none
  else
    let control := byteAt bs 13
    some
      { flow := ⟨src, UInt16.ofNat (wordAt bs 0), dst, UInt16.ofNat (wordAt bs 2)⟩
        flags :=
          { syn := control.testBit 1, ack := control.testBit 4, fin := control.testBit 0,
            rst := control.testBit 2, psh := control.testBit 3 }
        seq := UInt32.ofNat (longAt bs 4)
        ack := UInt32.ofNat (longAt bs 8)
        payload := bs.drop headerLength
        seen := seen }

/-- The segment in a packet, if it carries one. A fragment is not looked into. -/
def Packet.segment (p : Packet) (seen : Instant) : Except FrameError (Option Segment) :=
  if p.fragment then .ok none
  else if p.protocol == protocolTcp then (wellFormed (tcp? p.src p.dst seen p.payload)).map some
  else if p.protocol == protocolUdp then
    if isUdp p.payload then .ok none else .error .malformed
  else if p.protocol == protocolIcmp then
    if isIcmp p.payload then .ok none else .error .malformed
  else if p.protocol == protocolIcmp6 then
    if isIcmp6 p.payload then .ok none else .error .malformed
  else .ok none

/-! ## Frames -/

/-- How the frames of an interface begin. -/
abbrev LinkType := Int

/-- Frames that begin with an Ethernet header. -/
def linkEthernet : LinkType := 1

/-- The link types whose frames begin with an IP header. -/
def isBareIp (l : LinkType) : Bool := l == 101 || l == 228 || l == 229

/-- The segment in a frame, if it carries one; a frame of an unknown link type carries none. -/
def segment (l : LinkType) (bs : List UInt8) (seen : Instant) :
    Except FrameError (Option Segment) :=
  if l == linkEthernet then do (← ethernetPacket bs).segment seen
  else if isBareIp l then do (← wellFormed (ip? bs)).segment seen
  else .ok none

end Frame

end FlowWatch
