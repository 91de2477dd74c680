/-
Capture clocks.

A capture counts time in units of its own. The functions here convert such a count to an instant,
exactly and rounded down, or say that there is none: the count lies outside the representable
years, or the clock has no units.

No format of a capture tells an offset from UTC, so the frames of a capture file are stamped in UTC.
Packets that come from elsewhere may have been stamped at any offset.
-/
import FlowWatch.Frame
import FlowWatch.Time.Stamp

set_option autoImplicit false

namespace FlowWatch.Capture

/-- One captured frame; the stamp is absent where its time has no instant. -/
structure Event where
  stamp : Option Stamp
  link : Frame.LinkType
  data : List UInt8
  deriving DecidableEq, Repr

namespace Event

/-- The instant of the capture. -/
def time (e : Event) : Option Instant := e.stamp.map (·.instant)

/-- The time of a frame is in UTC, if it has one. -/
def InUtc (e : Event) : Prop := ∀ s, e.stamp = some s → s.offset = 0

end Event

/-- Times are stamped in UTC where nothing is said about their offset. -/
instance : Coe (Option Instant) (Option Stamp) := ⟨Option.map .utc⟩

/-- How an interface tells time. -/
structure Clock where
  link : Frame.LinkType
  unitsPerSecond : Nat
  offsetSeconds : Int
  deriving DecidableEq, Repr

/-- Units per second where a capture does not say. -/
def defaultUnits : Nat := 1000000

/-- The clock of an interface that was not described: Ethernet, in microseconds. -/
def Clock.default : Clock := ⟨Frame.linkEthernet, defaultUnits, 0⟩

/-- A nanosecond count as an instant. The conversion is taken to refuse every count outside the
representable years, however far off it is: also one whose seconds do not fit a signed 64-bit word,
as those of 2 ^ 64 - 1 units at one per second do not. -/
def instant? (n : Int) : Option Instant := if Instant.isRepresentable n then some n else none

/-- The units per second of a resolution byte: a negative power of two if the high bit is set,
else of ten. None if the number does not fit 64 bits. -/
def unitsPerSecond? (resolution : UInt8) : Option Nat :=
  let exponent := resolution.toNat % 128
  if 128 ≤ resolution.toNat then if exponent < 64 then some (Nat.pow 2 exponent) else none
  else if exponent < 20 then some (Nat.pow 10 exponent) else none

/-- The instant of a record with seconds and a fraction in microseconds or nanoseconds. -/
def secondsTime (nanosecond : Bool) (seconds fraction : Nat) : Option Instant :=
  instant? (seconds * 1000000000 + if nanosecond then fraction else fraction * 1000)

/-- The instant of a count of units, given by its high and its low half, as far as the conversion from
nanoseconds takes it (`instant?`). -/
def unitsTime (clock : Clock) (high low : Nat) : Option Instant :=
  if clock.unitsPerSecond == 0 then none
  else
    let units := high * 4294967296 + low
    let whole := units / clock.unitsPerSecond
    let fraction := units % clock.unitsPerSecond * 1000000000 / clock.unitsPerSecond
    instant? ((whole + clock.offsetSeconds) * 1000000000 + fraction)

end FlowWatch.Capture
