/-
UTF-8 on byte lists.

One scanner, `next`, reads the first character of a byte sequence or says how long the ill-formed
piece at its head is. Strict decoding refuses at the first ill-formed piece; tolerant decoding
writes U+FFFD for each. An ill-formed piece is the longest head that some well-formed sequence
starts with, so a character cut short by the end of the input or by a foreign byte counts once.
-/

set_option autoImplicit false

namespace FlowWatch.Text.Utf8

/-! ## Encoding -/

/-- The bytes of one character. -/
def encodeChar (c : Char) : List UInt8 :=
  let n := c.toNat
  if n < 0x80 then [UInt8.ofNat n]
  else if n < 0x800 then [UInt8.ofNat (0xC0 + n / 64), UInt8.ofNat (0x80 + n % 64)]
  else if n < 0x10000 then
    [UInt8.ofNat (0xE0 + n / 4096), UInt8.ofNat (0x80 + n / 64 % 64), UInt8.ofNat (0x80 + n % 64)]
  else
    [UInt8.ofNat (0xF0 + n / 262144), UInt8.ofNat (0x80 + n / 4096 % 64),
      UInt8.ofNat (0x80 + n / 64 % 64), UInt8.ofNat (0x80 + n % 64)]

/-- The bytes of a text. -/
def encode (cs : List Char) : List UInt8 := cs.flatMap encodeChar

/-! ## The scanner -/

/-- A continuation byte. -/
def isTail (b : UInt8) : Bool := 0x80 ≤ b.toNat && b.toNat ≤ 0xBF

/-- The six bits a continuation byte carries. -/
def tailBits (b : UInt8) : Nat := b.toNat - 0x80

/-- The bytes that may follow the lead byte `lead` of a three-byte character: neither an overlong
form nor a surrogate. -/
def isSecondOfThree (lead b : UInt8) : Bool :=
  isTail b && (lead.toNat != 0xE0 || 0xA0 ≤ b.toNat) && (lead.toNat != 0xED || b.toNat ≤ 0x9F)

/-- The bytes that may follow the lead byte `lead` of a four-byte character: neither an overlong
form nor a value above U+10FFFF. -/
def isSecondOfFour (lead b : UInt8) : Bool :=
  isTail b && (lead.toNat != 0xF0 || 0x90 ≤ b.toNat) && (lead.toNat != 0xF4 || b.toNat ≤ 0x8F)

/-- What the lead byte `lead` announces: the bits it contributes, and a test for each byte that
has to follow. -/
def announced? (lead : UInt8) : Option (Nat × List (UInt8 → Bool)) :=
  let n := lead.toNat
  if n < 0x80 then some (n, [])
  else if n < 0xC2 then none
  else if n < 0xE0 then some (n - 0xC0, [isTail])
  else if n < 0xF0 then some (n - 0xE0, [isSecondOfThree lead, isTail])
  else if n < 0xF5 then some (n - 0xF0, [isSecondOfFour lead, isTail, isTail])
  else none

/-- Reads one byte per test on top of the bits `acc`, and stops in front of the first byte that
fails its test. -/
def follow : List (UInt8 → Bool) → Nat → List UInt8 → Option Nat × List UInt8
  | [], acc, rest => (some acc, rest)
  | _ :: _, _, [] => (none, [])
  | fits :: tests, acc, b :: rest =>
    if fits b then follow tests (acc * 64 + tailBits b) rest else (none, b :: rest)

/-- Reads the character that starts with `lead`: the character, or nothing for an ill-formed
piece, and the bytes after it. -/
def next (lead : UInt8) (rest : List UInt8) : Option Char × List UInt8 :=
  match announced? lead with
  | none => (none, rest)
  | some (bits, tests) => ((follow tests bits rest).1.map Char.ofNat, (follow tests bits rest).2)

theorem follow_length_le (tests : List (UInt8 → Bool)) (acc : Nat) (rest : List UInt8) :
    (follow tests acc rest).2.length ≤ rest.length := by
  fun_induction follow tests acc rest with
  | case1 => simp
  | case2 => simp
  | case3 acc fits tests b rest hfits ih => simp only [List.length_cons]; omega
  | case4 => simp

/-- The scanner only moves forward. -/
theorem next_length_le (lead : UInt8) (rest : List UInt8) :
    (next lead rest).2.length ≤ rest.length := by
  unfold next
  split
  · simp
  · exact follow_length_le ..

/-! ## Decoding -/

/-- The text of a well-formed byte sequence. -/
def decode? : List UInt8 → Option (List Char)
  | [] => some []
  | b :: rest =>
    match (next b rest).1 with
    | none => none
    | some c => (decode? (next b rest).2).map (c :: ·)
termination_by bs => bs.length
decreasing_by have := next_length_le b rest; simp only [List.length_cons]; omega

/-- The text of any byte sequence, with U+FFFD for each ill-formed piece. -/
def decodeLossy : List UInt8 → List Char
  | [] => []
  | b :: rest => (next b rest).1.getD '\uFFFD' :: decodeLossy (next b rest).2
termination_by bs => bs.length
decreasing_by have := next_length_le b rest; simp only [List.length_cons]; omega

end FlowWatch.Text.Utf8
