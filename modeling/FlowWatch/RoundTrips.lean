/-
Round-trip statistics of one session.

Samples are spans; a negative one is refused. What is kept is the first sample, the extremes, the
sum and the count, and the summary gives them in whole microseconds.
-/
import FlowWatch.Time.Instant

set_option autoImplicit false

namespace FlowWatch

/-- Round-trip times in microseconds. -/
structure RttFigures where
  firstUs : Int64
  minUs : Int64
  maxUs : Int64
  avgUs : Int64
  samples : UInt64
  deriving DecidableEq, Repr

/-- Running statistics; `first` is absent until a sample was recorded. -/
structure RoundTrips where
  first : Option Span := none
  min : Span := 0
  max : Span := 0
  total : Span := 0
  count : UInt64 := 0
  deriving DecidableEq, Repr

namespace RoundTrips

/-- Folds a sample in, unless it is negative. -/
def add (s : RoundTrips) (rtt : Span) : RoundTrips :=
  if rtt < 0 then s
  else
    match s.first with
    -- The first sample sets the extremes, whatever they were.
    | none => ⟨some rtt, rtt, rtt, s.total + rtt, s.count + 1⟩
    | some _ => ⟨s.first, Min.min s.min rtt, Max.max s.max rtt, s.total + rtt, s.count + 1⟩

/-- The mean sample, cut to nanoseconds and held in a signed 64-bit word. -/
def mean (s : RoundTrips) : Option Span :=
  if s.count == 0 then none else some (Int64.ofInt (s.total.tdiv s.count.toNat)).toInt

/-- The summary, once there is a sample. -/
def summary (s : RoundTrips) : Option RttFigures := do
  let first ← s.first
  let mean ← s.mean
  some
    { firstUs := Span.microseconds first
      minUs := Span.microseconds s.min
      maxUs := Span.microseconds s.max
      avgUs := Span.microseconds mean
      samples := s.count }

end RoundTrips

end FlowWatch
