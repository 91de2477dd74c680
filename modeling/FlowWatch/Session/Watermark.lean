/-
The watermark of capture time.

Sessions live in capture time, which is known from the segments alone. The watermark is the newest
time seen, held in a signed 64-bit word; from there capture time runs on while real time passes.
-/
import FlowWatch.Time.Instant

set_option autoImplicit false

namespace FlowWatch

/-- The newest capture time, absent before the first segment. -/
structure Watermark where
  latest : Option Instant := none
  deriving DecidableEq, Repr

namespace Watermark

/-- Raises the watermark to a time; one below it changes nothing. -/
def raise (w : Watermark) (seen : Instant) : Watermark :=
  match w.latest with
  | none => ⟨some (clampInt64 seen)⟩
  | some latest => ⟨some (max latest (clampInt64 seen))⟩

/-- The capture time when `elapsed` has passed since the watermark was last raised or confirmed.
-/
def after (w : Watermark) (elapsed : Span) : Option Instant := w.latest.map (· + elapsed)

end Watermark

end FlowWatch
