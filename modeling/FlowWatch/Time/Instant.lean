/-
Instants and spans of time.

Both are whole nanoseconds, an instant counted from 1970-01-01T00:00:00Z. The arithmetic is exact.
Two bounds matter to the rest of the library: the years -9999 to 9999, outside of which no instant
is representable, and the signed 64-bit range, into which shared counters clamp an instant.
-/

set_option autoImplicit false

namespace FlowWatch

/-- Nanoseconds since 1970-01-01T00:00:00Z. -/
abbrev Instant := Int

/-- A difference of two instants in nanoseconds. -/
abbrev Span := Int

namespace Instant

/-- -9999-01-01T00:00:00Z, the earliest instant. -/
def earliest : Instant := -377705116800 * 1000000000

/-- 9999-12-31T23:59:59.999999999Z, the latest instant. -/
def latest : Instant := 253402300800 * 1000000000 - 1

/-- Whether a nanosecond count is an instant at all. -/
def isRepresentable (t : Int) : Bool := earliest ≤ t && t ≤ latest

end Instant

/-! ## Sixty-four-bit words -/

/-- The least signed 64-bit integer. -/
def int64Min : Int := -9223372036854775808

/-- The greatest signed 64-bit integer. -/
def int64Max : Int := 9223372036854775807

/-- The nearest signed 64-bit integer. -/
def clampInt64 (n : Int) : Int := max int64Min (min int64Max n)

namespace Span

/-- Whole microseconds, cut toward zero, in a signed 64-bit word. -/
def microseconds (d : Span) : Int64 := Int64.ofInt (d.tdiv 1000)

/-- A span of whole seconds. -/
def ofSeconds (n : Int) : Span := n * 1000000000

/-- A span of whole milliseconds. -/
def ofMilliseconds (n : Int) : Span := n * 1000000

end Span

end FlowWatch
