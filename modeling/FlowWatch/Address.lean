/-
IP addresses and their text.

An IPv4 address is written as four decimal numbers. An IPv6 address is eight groups in
hexadecimal, of which the longest run of at least two zero groups, the first of equals, is written
as a double colon; the addresses that embed an IPv4 address under `::ffff:` show it in decimal.
-/
import FlowWatch.Text.Decimal

set_option autoImplicit false

namespace FlowWatch

open Text

/-- A 32-bit address as four octets. -/
structure IPv4 where
  a : UInt8
  b : UInt8
  c : UInt8
  d : UInt8
  deriving DecidableEq, Hashable, Repr

/-- A 128-bit address as eight groups. -/
structure IPv6 where
  a : UInt16
  b : UInt16
  c : UInt16
  d : UInt16
  e : UInt16
  f : UInt16
  g : UInt16
  h : UInt16
  deriving DecidableEq, Hashable, Repr

/-- An address of either family. -/
inductive Address where
  | v4 (ip : IPv4)
  | v6 (ip : IPv6)
  deriving DecidableEq, Hashable, Repr

namespace IPv4

/-- The octets in order. -/
def octets (ip : IPv4) : List UInt8 := [ip.a, ip.b, ip.c, ip.d]

/-- The address of four octets. -/
def ofOctets? : List UInt8 → Option IPv4
  | [a, b, c, d] => some ⟨a, b, c, d⟩
  | _ => none

/-- Four decimal numbers with points between them. -/
def text (ip : IPv4) : List Char :=
  decimal ip.a.toNat ++ '.' :: decimal ip.b.toNat ++ '.' :: decimal ip.c.toNat ++
    '.' :: decimal ip.d.toNat

end IPv4

/-- The group of two octets. -/
def joinOctets (hi lo : UInt8) : UInt16 := UInt16.ofNat (256 * hi.toNat + lo.toNat)

namespace IPv6

/-- The groups in order. -/
def groups (ip : IPv6) : List UInt16 := [ip.a, ip.b, ip.c, ip.d, ip.e, ip.f, ip.g, ip.h]

/-- The octets in order, the high one of each group first. -/
def octets (ip : IPv6) : List UInt8 :=
  ip.groups.flatMap fun w => [UInt8.ofNat (w.toNat / 256), UInt8.ofNat (w.toNat % 256)]

/-- The address of sixteen octets. -/
def ofOctets? : List UInt8 → Option IPv6
  | [a, a', b, b', c, c', d, d', e, e', f, f', g, g', h, h'] =>
    some ⟨joinOctets a a', joinOctets b b', joinOctets c c', joinOctets d d', joinOctets e e',
      joinOctets f f', joinOctets g g', joinOctets h h'⟩
  | _ => none

/-- The IPv4 address embedded under `::ffff:`. -/
def mapped? (ip : IPv6) : Option IPv4 :=
  if ip.a == 0 && ip.b == 0 && ip.c == 0 && ip.d == 0 && ip.e == 0 && ip.f == 0xFFFF then
    some ⟨UInt8.ofNat (ip.g.toNat / 256), UInt8.ofNat (ip.g.toNat % 256),
      UInt8.ofNat (ip.h.toNat / 256), UInt8.ofNat (ip.h.toNat % 256)⟩
  else none

/-- The number of zero groups at the head. -/
def leadingZeros : List UInt16 → Nat
  | [] => 0
  | w :: ws => if w == 0 then leadingZeros ws + 1 else 0

/-- Where the longest run of zero groups starts, counted from `start`, and its length; of equal
runs the first. -/
def longestZeroRun (start : Nat) : List UInt16 → Nat × Nat
  | [] => (start, 0)
  | w :: ws =>
    let here := leadingZeros (w :: ws)
    let later := longestZeroRun (start + 1) ws
    if later.2 ≤ here then (start, here) else later

/-- Groups in hexadecimal with colons between them. -/
def groupsText (ws : List UInt16) : List Char :=
  [':'].intercalate (ws.map fun w => hexadecimal w.toNat)

/-- The compressed form. -/
def text (ip : IPv6) : List Char :=
  match ip.mapped? with
  | some v4 => "::ffff:".toList ++ v4.text
  | none =>
    let (start, length) := longestZeroRun 0 ip.groups
    if 2 ≤ length then
      groupsText (ip.groups.take start) ++ ':' :: ':' ::
        groupsText (ip.groups.drop (start + length))
    else groupsText ip.groups

end IPv6

namespace Address

/-- The address alone. -/
def text : Address → List Char
  | .v4 ip => ip.text
  | .v6 ip => ip.text

/-- The address and a port; an IPv6 address stands in brackets. -/
def endpoint (a : Address) (port : UInt16) : List Char :=
  match a with
  | .v4 ip => ip.text ++ ':' :: decimal port.toNat
  | .v6 ip => '[' :: ip.text ++ ']' :: ':' :: decimal port.toNat

end Address

end FlowWatch
