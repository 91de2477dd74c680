/-
Block-structured capture files.

A block has a type, its length, a body, and its length again. Section headers give the byte order
of what follows, interface descriptions number the interfaces of their section, and packet blocks
name the interface they come from. A packet carries its bytes together with the padding to a
multiple of four. Blocks of all other types are skipped, though some of them are looked into: the
length at their end has to be right, and what they announce has to fit their body.
-/
import FlowWatch.Capture.Legacy

set_option autoImplicit false

namespace FlowWatch.Capture

/-- A block, as far as packets depend on it. -/
inductive Block where
  | section (order : ByteOrder)
  | interface (link : Frame.LinkType) (resolution : UInt8) (offset : Int)
  | packet (interface high low : Nat) (data : List UInt8)
  | other (type : Nat)
  deriving DecidableEq, Repr

namespace Block

/-! ## Layout -/

/-- The block types whose layout matters. -/
def typeSection : Nat := 0x0A0D0D0A
def typeInterface : Nat := 1
def typeSimplePacket : Nat := 3
def typeNames : Nat := 4
def typeStatistics : Nat := 5
def typePacket : Nat := 6
def typeJournal : Nat := 9
def typeSecrets : Nat := 10
def typeCustom : Nat := 0xBAD
def typeCustomNoCopy : Nat := 0x40000BAD
def typeProcess : Nat := 0x80000001

/-- The least length of a block of a type. -/
def minimumLength (type : Nat) : Nat :=
  if type == typeSection then 28
  else if type == typeInterface || type == typeSecrets then 20
  else if type == typeSimplePacket || type == typeCustom || type == typeCustomNoCopy then 16
  else if type == typeStatistics then 24
  else if type == typePacket then 32
  else 12

/-- How many bytes of a block have to be there before its length is judged. -/
def lookAhead (type : Nat) : Nat := if type == typeProcess then 8 else minimumLength type

/-- The least multiple of four that is not less. -/
def padded (n : Nat) : Nat := (n + 3) / 4 * 4

/-- The greatest length field whose padding still fits 32 bits. -/
def maxField : Nat := 4294967290

/-- How many of `n` bytes are missing. -/
def lacking (n : Nat) (bs : List UInt8) : Nat := n - (bs.take n).length

/-! ## Options -/

/-- Options with their code and their value, up to the first that does not fit. -/
def options (order : ByteOrder) (bs : List UInt8) : List (Nat × List UInt8) :=
  match bs with
  | _ :: _ :: _ :: _ :: rest =>
    let length := padded (order.word bs 2)
    if lacking length rest != 0 then []
    else (order.word bs 0, rest.take length) :: options order (rest.drop length)
  | _ => []
termination_by bs.length
decreasing_by simp only [List.length_drop, List.length_cons]; omega

/-- The code of the option with the resolution of timestamps. -/
def optionResolution : Nat := 9

/-- The code of the option with the offset of timestamps. -/
def optionOffset : Nat := 14

/-- The resolution: microseconds unless an option says otherwise, and the last one counts. -/
def resolution (opts : List (Nat × List UInt8)) : UInt8 :=
  opts.foldl (fun r o => if o.1 == optionResolution then o.2.head?.getD r else r) 6

/-- The offset in seconds, written with its low byte first whatever the byte order of the section.
-/
def offset (opts : List (Nat × List UInt8)) : Int :=
  opts.foldl (fun r o =>
    if o.1 == optionOffset && 8 ≤ o.2.length then
      ((ByteOrder.little.long o.2 0 + 4294967296 * ByteOrder.little.long o.2 4 : Nat) : Int).bmod
        18446744073709551616
    else r) 0

/-! ## Bodies -/

/-- What a reader makes of the body of a block. -/
inductive Body where
  | block (b : Block)
  /-- The body says that it is that many bytes longer than it is. -/
  | lacks (n : Nat)
  | malformed

/-- A block whose type says nothing about packets, unless bytes are missing. -/
def Body.plain (type missing : Nat) : Body :=
  if missing == 0 then .block (.other type) else .lacks missing

/-- How many bytes the records of names lack; four zero bytes in place of a record end them. -/
def namesLack (order : ByteOrder) (bs : List UInt8) : Nat :=
  if (bs.take 4).all (· == 0) then lacking 4 bs
  else
    match bs with
    | _ :: _ :: _ :: _ :: rest =>
      let length := padded (order.word bs 2)
      let missing := lacking length rest
      if missing != 0 then missing else namesLack order (rest.drop length)
    | bs => if lacking 2 bs != 0 then lacking 2 bs else lacking 4 bs
termination_by bs.length
decreasing_by simp only [List.length_drop, List.length_cons]; omega

/-- Reads the body of a block, which has at least the bytes that its type asks for. -/
def body (order : ByteOrder) (type : Nat) (bs : List UInt8) : Body :=
  if type == typeSection then .block (.section order)
  else if type == typeInterface then
    let opts := options order (bs.drop 8)
    .block (.interface (order.word bs 0) (resolution opts) (offset opts))
  else if type == typePacket then
    let captured := order.long bs 12
    let missing := lacking (padded captured) (bs.drop 20)
    if maxField < captured then .malformed
    else if missing != 0 then .lacks missing
    else
      .block (.packet (order.long bs 0) (order.long bs 4) (order.long bs 8)
        (Frame.sliceAt bs 20 (padded captured)))
  else if type == typeSecrets then
    let secret := order.long bs 4
    if maxField < secret then .malformed else .plain type (lacking (padded secret) (bs.drop 8))
  else if type == typeNames then .plain type (namesLack order bs)
  else if type == typeProcess then .plain type (lacking 4 bs)
  else .block (.other type)

/-! ## Scanning -/

/-- Goes on if the first `n` bytes are there. -/
def need {α : Type} (buffered n : Nat) (go : Scan α) : Scan α :=
  if buffered < n then .wants n else go

/-- Whether the length behind the body has to agree with the one in front of it. -/
def isClosed (type : Nat) : Bool :=
  [typeInterface, typeNames, typeStatistics, typePacket, typeSecrets, typeCustom, typeCustomNoCopy,
    typeProcess].contains type

/-- Reads a block that is there as a whole. A body that lacks bytes asks for more than the block
has, as if they could follow the bytes in the buffer. -/
def scanWhole (order : ByteOrder) (buffered : Nat) (bs : List UInt8) (type length : Nat) :
    Scan Block :=
  match body order type (Frame.sliceAt bs 8 (length - 12)) with
  | .lacks n => .wants (buffered + n)
  | .malformed => .malformed
  | .block b =>
    if isClosed type && order.long bs (length - 4) != length then .malformed
    else .record b length

/-- Reads a block of a known type in a byte order. -/
def scanAs (order : ByteOrder) (buffered : Nat) (bs : List UInt8) (type : Nat) : Scan Block :=
  need buffered (lookAhead type)
    (let length := order.long bs 4
    if length < minimumLength type then .malformed
    else
      need buffered (length - 4)
        (need buffered length (scanWhole order buffered bs type length)))

/-- Reads a section header, whose byte order stands in itself. -/
def scanSection (buffered : Nat) (bs : List UInt8) : Scan Block :=
  need buffered 12
    (if Frame.longAt bs 8 == 0x1A2B3C4D then scanAs .big buffered bs typeSection
    else if Frame.longAt bs 8 == 0x4D3C2B1A then scanAs .little buffered bs typeSection
    else .malformed)

/-- The byte order after a block. -/
def orderAfter (order : ByteOrder) : Block → ByteOrder
  | .section order => order
  | _ => order

/-- Reads a block in the byte order of the section. -/
def scan (order : ByteOrder) (buffered : Nat) (bs : List UInt8) : Scan (Block × ByteOrder) :=
  let block :=
    need buffered 4
      (if order.long bs 0 == typeSection then scanSection buffered bs
      else scanAs order buffered bs (order.long bs 0))
  match block with
  | .record b n => .record (b, orderAfter order b) n
  | .wants n => .wants n
  | .malformed => .malformed

/-- Whether a capture begins with a section header. -/
def startsSection (w : Window) : Bool :=
  match scanSection w.buffered w.rest with
  | .record _ _ => true
  | _ => false

/-- Reads all blocks of a capture. -/
def read (w : Window) : List Block × Option SourceError :=
  w.read "pcapng reader next" scan .little

/-! ## Packets -/

/-- The clock an interface description stands for. -/
def clock (link : Frame.LinkType) (resolution : UInt8) (offset : Int) : Clock :=
  ⟨link, (unitsPerSecond? resolution).getD defaultUnits, offset⟩

/-- The packets of a sequence of blocks, given the interfaces of the section so far. -/
def events (interfaces : Array Clock) : List Block → List Event
  | [] => []
  | .section _ :: blocks => events #[] blocks
  | .interface link resolution offset :: blocks =>
    events (interfaces.push (clock link resolution offset)) blocks
  | .packet id high low data :: blocks =>
    let c := interfaces[id]?.getD Clock.default
    ⟨unitsTime c high low, c.link, data⟩ :: events interfaces blocks
  | .other _ :: blocks => events interfaces blocks

end Block

end FlowWatch.Capture
