/-
TCP sequence numbers.

Sequence numbers are 32-bit words that wrap, and they are ordered serially: `b` is not behind `a`
when the way from `a` up to `b` is shorter than half the circle.
-/

set_option autoImplicit false

namespace FlowWatch

/-- A position in a TCP byte stream. -/
abbrev Sequence := UInt32

namespace Sequence

/-- The position `n` bytes further on. -/
def advance (s : Sequence) (n : Nat) : Sequence := s + UInt32.ofNat n

/-- The position `n` bytes back. -/
def retreat (s : Sequence) (n : Nat) : Sequence := s - UInt32.ofNat n

/-- The signed way from `a` to `b`, at most half the circle. -/
def distance (a b : Sequence) : Int := ((b - a).toNat : Int).bmod 4294967296

/-- Serial order: `b` is at or ahead of `a`. -/
def atOrBefore (a b : Sequence) : Bool := 0 ≤ distance a b

end Sequence

end FlowWatch
