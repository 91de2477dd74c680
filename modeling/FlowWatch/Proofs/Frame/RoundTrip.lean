/-
Frames, written and read.

A segment is written with a TCP header and an IP header of either version, and on Ethernet with a frame
header. The headers have fields that no segment has, and they may hold anything. Whatever they hold, and
whatever pads the frame behind the packet, the same segment is read: the lengths in the headers say where its
payload begins and ends. Each header is read back on its own, and the frame is then read from outside inward.
-/
import FlowWatch.Frame
import FlowWatch.Proofs.Capture.Numbers

set_option autoImplicit false

namespace FlowWatch

/-! ## Addresses -/

/-- The octets of an address, as headers hold them. -/
def Address.octets : Address → List UInt8
  | .v4 ip => ip.octets
  | .v6 ip => ip.octets

theorem IPv4.length_octets (ip : IPv4) : ip.octets.length = 4 := rfl

theorem IPv4.ofOctets?_octets (ip : IPv4) : ofOctets? ip.octets = some ip := rfl

theorem joinOctets_split (w : UInt16) :
    joinOctets (UInt8.ofNat (w.toNat / 256)) (UInt8.ofNat (w.toNat % 256)) = w := by
  have hw := w.toNat_lt
  rw [← UInt16.toNat_inj, joinOctets, UInt16.toNat_ofNat', UInt8.toNat_ofNat', UInt8.toNat_ofNat']
  omega

theorem IPv6.length_octets (ip : IPv6) : ip.octets.length = 16 := rfl

theorem IPv6.ofOctets?_octets (ip : IPv6) : ofOctets? ip.octets = some ip := by
  show some (IPv6.mk (joinOctets _ _) (joinOctets _ _) (joinOctets _ _) (joinOctets _ _)
    (joinOctets _ _) (joinOctets _ _) (joinOctets _ _) (joinOctets _ _)) = some ip
  simp only [joinOctets_split]

namespace Frame

/-! ## Writing -/

/-- Numbers in headers stand with the high byte first. -/
abbrev network : Capture.ByteOrder := .big

/-- The options behind a header: whole words of four bytes, ten of them at most. -/
structure HeaderOptions where
  bytes : List UInt8
  whole : bytes.length % 4 = 0
  length_le : bytes.length ≤ 40

/-- What a TCP header holds that a segment does not have. -/
structure TcpHeader where
  /-- The bits behind the length. -/
  reserved : Fin 16
  /-- The control bits above those of a segment. -/
  marks : Fin 8
  window : UInt16
  checksum : UInt16
  urgent : UInt16
  options : HeaderOptions

/-- What an IPv4 header holds beside the addresses, the lengths and the protocol. -/
structure IPv4Header where
  service : UInt8
  identification : UInt16
  /-- The two bits above those that tell of fragments. -/
  marks : Fin 4
  hops : UInt8
  checksum : UInt16
  options : HeaderOptions

/-- What an IPv6 header holds beside the addresses, the length and the protocol. -/
structure IPv6Header where
  /-- The traffic class and the flow label. -/
  label : Fin 268435456
  hops : UInt8

/-- The header of a packet. -/
inductive NetworkHeader where
  | v4 (header : IPv4Header)
  | v6 (header : IPv6Header)

/-- The addresses of a frame. -/
structure EthernetHeader where
  addresses : List UInt8
  length_eq : addresses.length = 12

/-- The control bits of a TCP header. -/
def controlBits (marks : Fin 8) (f : TcpFlags) : Nat :=
  32 * marks + 16 * f.ack.toNat + 8 * f.psh.toNat + 4 * f.rst.toNat + 2 * f.syn.toNat + f.fin.toNat

/-- A segment behind its header. -/
def TcpHeader.bytes (h : TcpHeader) (s : Segment) : List UInt8 :=
  network.wordBytes s.flow.srcPort.toNat ++ (network.wordBytes s.flow.dstPort.toNat ++
    (network.longBytes s.seq.toNat ++ (network.longBytes s.ack.toNat ++
      ([UInt8.ofNat (16 * (5 + h.options.bytes.length / 4) + h.reserved),
          UInt8.ofNat (controlBits h.marks s.flags)] ++
        (network.wordBytes h.window.toNat ++ (network.wordBytes h.checksum.toNat ++
          (network.wordBytes h.urgent.toNat ++ (h.options.bytes ++ s.payload))))))))

/-- The header of an IPv4 packet that carries `n` bytes of TCP, before what follows it. -/
def IPv4Header.before (h : IPv4Header) (src dst : List UInt8) (n : Nat) (rest : List UInt8) :
    List UInt8 :=
  [UInt8.ofNat (16 * 4 + (5 + h.options.bytes.length / 4)), h.service] ++
    (network.wordBytes (20 + h.options.bytes.length + n) ++
      (network.wordBytes h.identification.toNat ++ (network.wordBytes (16384 * h.marks) ++
        ([h.hops, UInt8.ofNat protocolTcp] ++ (network.wordBytes h.checksum.toNat ++
          (src ++ (dst ++ (h.options.bytes ++ rest))))))))

/-- The header of an IPv6 packet that carries `n` bytes of TCP, before what follows it. -/
def IPv6Header.before (h : IPv6Header) (src dst : List UInt8) (n : Nat) (rest : List UInt8) :
    List UInt8 :=
  network.longBytes (268435456 * 6 + h.label) ++ (network.wordBytes n ++
    ([UInt8.ofNat protocolTcp, h.hops] ++ (src ++ (dst ++ rest))))

/-- The header of a packet that carries `n` bytes of a flow, before what follows it. -/
def NetworkHeader.before (net : NetworkHeader) (flow : Flow) (n : Nat) (rest : List UInt8) :
    List UInt8 :=
  match net with
  | .v4 h => h.before flow.src.octets flow.dst.octets n rest
  | .v6 h => h.before flow.src.octets flow.dst.octets n rest

/-- A segment in a packet. -/
def NetworkHeader.packet (net : NetworkHeader) (tcp : TcpHeader) (s : Segment) : List UInt8 :=
  net.before s.flow (tcp.bytes s).length (tcp.bytes s)

/-- The Ethernet type of a packet. -/
def NetworkHeader.etherType : NetworkHeader → Nat
  | .v4 _ => typeIpv4
  | .v6 _ => typeIpv6

/-- A packet in an Ethernet frame. -/
def EthernetHeader.frame (h : EthernetHeader) (net : NetworkHeader) (packet : List UInt8) :
    List UInt8 :=
  h.addresses ++ (network.wordBytes net.etherType ++ packet)

/-- The header is one of the family of both addresses, and its length field can hold the length of the
segment. -/
def NetworkHeader.Fits (net : NetworkHeader) (tcp : TcpHeader) (s : Segment) : Prop :=
  match net with
  | .v4 h => (∃ src dst, s.flow.src = .v4 src ∧ s.flow.dst = .v4 dst) ∧
      20 + h.options.bytes.length + (20 + tcp.options.bytes.length + s.payload.length) < 65536
  | .v6 _ => (∃ src dst, s.flow.src = .v6 src ∧ s.flow.dst = .v6 dst) ∧
      20 + tcp.options.bytes.length + s.payload.length < 65536

/-! ## The transport layer -/

/-- Whole words of options, as the length fields of headers count them. -/
theorem HeaderOptions.words (o : HeaderOptions) :
    4 * (5 + o.bytes.length / 4) = 20 + o.bytes.length ∧ o.bytes.length / 4 ≤ 10 := by
  have := o.whole
  have := o.length_le
  omega

/-- Each control bit is where it was written. -/
theorem testBit_controlBits (marks : Fin 8) (f : TcpFlags) :
    let control := (UInt8.ofNat (controlBits marks f)).toNat
    control.testBit 1 = f.syn ∧ control.testBit 4 = f.ack ∧ control.testBit 0 = f.fin ∧
      control.testBit 2 = f.rst ∧ control.testBit 3 = f.psh := by
  obtain ⟨syn, ack, fin, rst, psh⟩ := f
  revert marks syn ack fin rst psh
  decide

theorem TcpHeader.length_bytes (h : TcpHeader) (s : Segment) :
    (h.bytes s).length = 20 + h.options.bytes.length + s.payload.length := by
  simp only [bytes, List.length_append, Capture.ByteOrder.length_wordBytes,
    Capture.ByteOrder.length_longBytes, List.length_cons, List.length_nil]
  omega

/-- A segment is read back, whatever its header holds beside. -/
theorem TcpHeader.tcp?_bytes (h : TcpHeader) (s : Segment) (seen : Instant) :
    tcp? s.flow.src s.flow.dst seen (h.bytes s) = some { s with seen := seen } := by
  have hsrc : wordAt (h.bytes s) 0 = s.flow.srcPort.toNat :=
    (network.word_wordBytes _).trans (Nat.mod_eq_of_lt s.flow.srcPort.toNat_lt)
  have hdst : wordAt (h.bytes s) 2 = s.flow.dstPort.toNat :=
    network.word_field s.flow.dstPort.toNat_lt rfl
  have hseq : longAt (h.bytes s) 4 = s.seq.toNat :=
    (longAt_append (i := 2) rfl).trans (network.long_field s.seq.toNat_lt rfl)
  have hack : longAt (h.bytes s) 8 = s.ack.toNat :=
    (longAt_append (i := 6) rfl).trans
      ((longAt_append (i := 4) rfl).trans (network.long_field s.ack.toNat_lt rfl))
  obtain ⟨hwords, hten⟩ := h.options.words
  -- The length stands above the reserved bits, and ten words of options leave room for them.
  have hlength : 4 * (byteAt (h.bytes s) 12 / 16) = 20 + h.options.bytes.length := by
    have hbyte : byteAt (h.bytes s) 12 = 16 * (5 + h.options.bytes.length / 4) + h.reserved :=
      UInt8.toNat_ofNat'.trans (Nat.mod_eq_of_lt (by omega))
    omega
  have hpayload : (h.bytes s).drop (20 + h.options.bytes.length) = s.payload := by
    rw [← List.drop_drop]
    exact List.drop_left' rfl
  obtain ⟨hsyn, hackBit, hfin, hrst, hpsh⟩ := testBit_controlBits h.marks s.flags
  have hcontrol : byteAt (h.bytes s) 13 = (UInt8.ofNat (controlBits h.marks s.flags)).toNat := rfl
  have hfull := h.length_bytes s
  unfold tcp?
  rw [if_neg (by simp only [hlength, Bool.or_eq_true, decide_eq_true_eq]; omega)]
  simp only [hlength, hpayload, hsrc, hdst, hseq, hack, hcontrol, hsyn, hackBit, hfin, hrst, hpsh,
    UInt16.ofNat_toNat, UInt32.ofNat_toNat]

/-! ## The network layer -/

section NetworkLayer

variable (body trailing : List UInt8)

/-- The version and the header length of an IPv4 packet share its first byte. -/
theorem IPv4Header.byteAt_zero (h : IPv4Header) (src dst : List UInt8) (n : Nat)
    (rest : List UInt8) :
    byteAt (h.before src dst n rest) 0 = 16 * 4 + (5 + h.options.bytes.length / 4) :=
  UInt8.toNat_ofNat'.trans (Nat.mod_eq_of_lt (by have := h.options.words; omega))

/-- An IPv4 packet is read back, and what follows it is not read. -/
theorem IPv4Header.ipv4?_before (h : IPv4Header) (src dst : IPv4)
    (hfits : 20 + h.options.bytes.length + body.length < 65536) :
    ipv4? (h.before src.octets dst.octets body.length (body ++ trailing)) =
      some ⟨.v4 src, .v4 dst, protocolTcp, false, body⟩ := by
  obtain ⟨packet, hpacket⟩ :
    ∃ packet, h.before src.octets dst.octets body.length (body ++ trailing) = packet := ⟨_, rfl⟩
  have hfirst : byteAt packet 0 = 16 * 4 + (5 + h.options.bytes.length / 4) := by
    rw [← hpacket, h.byteAt_zero]
  have htotal : wordAt packet 2 = 20 + h.options.bytes.length + body.length := by
    rw [← hpacket]
    exact network.word_field hfits rfl
  have hmarks : wordAt packet 6 = 16384 * h.marks := by
    rw [← hpacket, before, wordAt_append (i := 4) (by rfl), wordAt_append (i := 2) (by rfl)]
    exact network.word_field (by omega) rfl
  have hprotocol : byteAt packet 9 = protocolTcp := by rw [← hpacket]; rfl
  have hsrc : IPv4.ofOctets? (sliceAt packet 12 4) = some src := by
    rw [← hpacket]
    exact src.ofOctets?_octets
  have hdst : IPv4.ofOctets? (sliceAt packet 16 4) = some dst := by
    rw [← hpacket]
    exact dst.ofOctets?_octets
  -- What is sliced off ends where the body does, so nothing of the trailing bytes is in it.
  have hbody : sliceAt packet (20 + h.options.bytes.length) body.length = body := by
    have hbehind : packet.drop 20 = h.options.bytes ++ (body ++ trailing) := by rw [← hpacket]; rfl
    rw [sliceAt, ← List.drop_drop, hbehind, List.drop_left, List.take_left]
  have hfull : packet.length = 20 + h.options.bytes.length + (body.length + trailing.length) := by
    simp only [← hpacket, before, List.length_append, Capture.ByteOrder.length_wordBytes,
      List.length_cons, List.length_nil, IPv4.length_octets]
    omega
  obtain ⟨hwords, hten⟩ := h.options.words
  have hversion : byteAt packet 0 / 16 = 4 := by omega
  have hheader : 4 * (byteAt packet 0 % 16) = 20 + h.options.bytes.length := by omega
  have hwhole : wordAt packet 6 % 16384 = 0 := by omega
  rw [hpacket]
  unfold ipv4?
  simp only [hheader, htotal, hversion, hwhole]
  rw [if_neg (by simp only [Bool.or_eq_true, decide_eq_true_eq, bne_self_eq_false,
    Bool.false_eq_true, or_false]; omega)]
  simp [hsrc, hdst, hprotocol, hbody, protocolTcp, protocolAuthentication]

/-- The version of an IPv6 packet stands above its label. -/
theorem IPv6Header.byteAt_zero (h : IPv6Header) (src dst : List UInt8) (n : Nat)
    (rest : List UInt8) : byteAt (h.before src dst n rest) 0 / 16 = 6 := by
  have hbyte : byteAt (h.before src dst n rest) 0 =
      (268435456 * 6 + (h.label : Nat)) / 65536 / 256 % 256 := UInt8.toNat_ofNat'
  omega

/-- No extension header stands before TCP. -/
theorem ipv6Payload?_tcp : ipv6Payload? protocolTcp body = some ((protocolTcp, body), false) := rfl

/-- An IPv6 packet is read back, and what follows it is not read. -/
theorem IPv6Header.ipv6?_before (h : IPv6Header) (src dst : IPv6) (hne : body ≠ [])
    (hfits : body.length < 65536) :
    ipv6? (h.before src.octets dst.octets body.length (body ++ trailing)) =
      some ⟨.v6 src, .v6 dst, protocolTcp, false, body⟩ := by
  obtain ⟨packet, hpacket⟩ :
    ∃ packet, h.before src.octets dst.octets body.length (body ++ trailing) = packet := ⟨_, rfl⟩
  have hversion : byteAt packet 0 / 16 = 6 := by rw [← hpacket, h.byteAt_zero]
  have hlength : wordAt packet 4 = body.length := by
    rw [← hpacket]
    exact network.word_field hfits rfl
  have hprotocol : byteAt packet 6 = protocolTcp := by rw [← hpacket]; rfl
  have hsrc : IPv6.ofOctets? (sliceAt packet 8 16) = some src := by
    rw [← hpacket]
    exact src.ofOctets?_octets
  have hdst : IPv6.ofOctets? (sliceAt packet 24 16) = some dst := by
    rw [← hpacket]
    exact dst.ofOctets?_octets
  have hbody : sliceAt packet 40 body.length = body := by
    have hbehind : packet.drop 40 = body ++ trailing := by rw [← hpacket]; rfl
    rw [sliceAt, hbehind, List.take_left]
  have hfull : packet.length = 40 + (body.length + trailing.length) := by
    simp only [← hpacket, before, List.length_append, Capture.ByteOrder.length_wordBytes,
      Capture.ByteOrder.length_longBytes, List.length_cons, List.length_nil, IPv6.length_octets]
    omega
  -- A length of zero would stand for all that is there, the trailing bytes too.
  have hnone : body.length ≠ 0 := mt List.length_eq_zero_iff.mp hne
  rw [hpacket]
  unfold ipv6?
  simp only [hlength, hversion]
  rw [if_neg (by simp only [Bool.or_eq_true, decide_eq_true_eq, bne_self_eq_false,
    Bool.false_eq_true, or_false]; omega)]
  simp [hsrc, hdst, hprotocol, hbody, hnone, ipv6Payload?_tcp]

end NetworkLayer

namespace NetworkHeader

variable {net : NetworkHeader} {tcp : TcpHeader} {s : Segment}

/-- The reader of packets of this version. -/
def read? : NetworkHeader → List UInt8 → Option Packet
  | .v4 _ => ipv4?
  | .v6 _ => ipv6?

theorem etherType_lt (net : NetworkHeader) : net.etherType < 65536 := by
  unfold etherType
  split <;> decide

theorem before_append (flow : Flow) (n : Nat) (rest trailing : List UInt8) :
    net.before flow n rest ++ trailing = net.before flow n (rest ++ trailing) := by
  cases net <;> simp only [before, IPv4Header.before, IPv6Header.before, List.append_assoc]

/-- The packet of a segment is read back by the reader of its version, and what follows it is not
read. -/
theorem read?_packet (hfits : net.Fits tcp s) (trailing : List UInt8) :
    net.read? (net.packet tcp s ++ trailing) =
      some ⟨s.flow.src, s.flow.dst, protocolTcp, false, tcp.bytes s⟩ := by
  have hlength := tcp.length_bytes s
  rw [packet, before_append]
  cases net with
  | v4 h =>
    obtain ⟨⟨src, dst, hsrc, hdst⟩, htotal⟩ := hfits
    rw [hsrc, hdst]
    simp only [before, hsrc, hdst, Address.octets, read?]
    exact h.ipv4?_before _ trailing src dst (by omega)
  | v6 h =>
    obtain ⟨⟨src, dst, hsrc, hdst⟩, htotal⟩ := hfits
    simp only [before, hsrc, hdst, Address.octets, read?]
    exact h.ipv6?_before _ trailing src dst (List.ne_nil_of_length_pos (by omega)) (by omega)

/-- The version in a packet is that of its header. -/
theorem ip?_before (flow : Flow) (n : Nat) (rest : List UInt8) :
    ip? (net.before flow n rest) = net.read? (net.before flow n rest) := by
  cases net with
  | v4 h =>
    have hversion : byteAt ((v4 h).before flow n rest) 0 / 16 = 4 := by
      rw [before, h.byteAt_zero]
      have := h.options.words
      omega
    rw [ip?, if_neg (by simp [before, IPv4Header.before]), hversion]
    rfl
  | v6 h =>
    have hversion : byteAt ((v6 h).before flow n rest) 0 / 16 = 6 := h.byteAt_zero _ _ n rest
    rw [ip?, if_neg (by simp [before, IPv6Header.before]), hversion]
    rfl

end NetworkHeader

/-! ## Frames -/

theorem EthernetHeader.frame_append (h : EthernetHeader) (net : NetworkHeader)
    (bs trailing : List UInt8) : h.frame net bs ++ trailing = h.frame net (bs ++ trailing) := by
  simp only [frame, List.append_assoc]

/-- Behind the header of an Ethernet frame stands the packet that its type tells of. -/
theorem EthernetHeader.ethernetPacket_frame (h : EthernetHeader) (net : NetworkHeader)
    (bs : List UInt8) : ethernetPacket (h.frame net bs) = wellFormed (net.read? bs) := by
  have hlength : (h.frame net bs).length = 14 + bs.length := by
    simp only [frame, List.length_append, h.length_eq, Capture.ByteOrder.length_wordBytes]
    omega
  have htype : wordAt (h.frame net bs) 12 = net.etherType :=
    network.word_field net.etherType_lt h.length_eq.symm
  have hbehind : (h.frame net bs).drop 14 = bs := by
    rw [frame, ← List.append_assoc]
    exact List.drop_left' (by rw [List.length_append, h.length_eq]; rfl)
  rw [ethernetPacket, if_neg (by omega), htype, hbehind]
  cases net <;> rfl

/-- The segment of a packet is the one that was written. -/
theorem Packet.segment_tcp (tcp : TcpHeader) (s : Segment) (seen : Instant) :
    Packet.segment ⟨s.flow.src, s.flow.dst, protocolTcp, false, tcp.bytes s⟩ seen =
      .ok (some { s with seen := seen }) := by
  simp [Packet.segment, tcp.tcp?_bytes, wellFormed, Except.map]

/-- Reading undoes writing. -/
theorem segment_undoes_encoding {net : NetworkHeader} {tcp : TcpHeader} {s : Segment}
    (hfits : net.Fits tcp s) (trailing : List UInt8) (seen : Instant) :
    (∀ h : EthernetHeader, segment linkEthernet (h.frame net (net.packet tcp s) ++ trailing) seen =
      .ok (some { s with seen := seen })) ∧
    (∀ l ∈ ([101, 228, 229] : List LinkType), segment l (net.packet tcp s ++ trailing) seen =
      .ok (some { s with seen := seen })) ∧
    (s.payload = [] → ({ s with seen := seen } : Segment).coveringAck = s.seq.advance 1) := by
  refine ⟨fun h => ?_, fun l hl => ?_, fun hnone => ?_⟩
  · have hpacket : ethernetPacket (h.frame net (net.packet tcp s) ++ trailing) =
        .ok ⟨s.flow.src, s.flow.dst, protocolTcp, false, tcp.bytes s⟩ := by
      rw [h.frame_append, h.ethernetPacket_frame, net.read?_packet hfits, wellFormed]
    rw [segment, if_pos (by rfl), hpacket]
    exact Packet.segment_tcp tcp s seen
  · have hpacket : ip? (net.packet tcp s ++ trailing) =
        some ⟨s.flow.src, s.flow.dst, protocolTcp, false, tcp.bytes s⟩ := by
      rw [← net.read?_packet hfits trailing, NetworkHeader.packet, net.before_append,
        net.ip?_before]
    have hlink : (l == linkEthernet) = false ∧ isBareIp l = true := by
      revert l
      decide
    rw [segment, hlink.1, hlink.2, hpacket]
    exact Packet.segment_tcp tcp s seen
  · rw [Segment.coveringAck, hnone]
    rfl

/-- A bare acknowledgment fills 54 bytes of a frame, and six more pad it to the 60 that Ethernet asks for.
None of them is payload. -/
theorem padded_acknowledgment_is_bare :
    let options : HeaderOptions := ⟨[], rfl, by decide⟩
    let net : NetworkHeader := .v4 ⟨0, 4660, 1, 64, 0, options⟩
    let tcp : TcpHeader := ⟨0, 0, 502, 0, 0, options⟩
    let h : EthernetHeader := ⟨[2, 0, 0, 0, 0, 1, 2, 0, 0, 0, 0, 2], rfl⟩
    let s : Segment :=
      ⟨⟨.v4 ⟨10, 0, 0, 2⟩, 443, .v4 ⟨10, 0, 0, 1⟩, 50000⟩, { ack := true }, 1000, 2000, [], 5⟩
    net.Fits tcp s ∧
      (h.frame net (net.packet tcp s) ++ [0, 0, 0, 0, 0, 0]).length = 60 ∧
      segment linkEthernet (h.frame net (net.packet tcp s) ++ [0, 0, 0, 0, 0, 0]) 5 = .ok (some s) ∧
      s.coveringAck = Sequence.advance 1000 1 := by
  intro options net tcp h s
  have hfits : net.Fits tcp s := ⟨⟨_, _, rfl, rfl⟩, by decide⟩
  have hread := segment_undoes_encoding hfits [0, 0, 0, 0, 0, 0] 5
  exact ⟨hfits, rfl, hread.1 h, hread.2.2 rfl⟩

end Frame

end FlowWatch
