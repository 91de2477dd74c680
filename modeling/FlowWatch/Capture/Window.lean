/-
Reading records through a buffer of fixed size.

A record is read from the buffered bytes alone. If they do not suffice, the buffer is filled up
from the capture, and a record that can never fit is an error, as is a record that the end of the
capture cuts short. How many bytes a record lacks is found out piece by piece (a header first,
then what the header announces), so a reader of records says how many bytes it would have to see
to get on.
-/
set_option autoImplicit false

namespace FlowWatch.Capture

/-- Why reading stopped. -/
inductive SourceError where
  /-- The capture cannot be read. -/
  | unreadable
  /-- The capture ends within a record. -/
  | truncated (context : String)
  /-- The capture is malformed. -/
  | malformed (context : String)
  deriving DecidableEq, Repr

/-- What a reader of records makes of the buffered bytes. -/
inductive Scan (α : Type) where
  /-- A record of the given length. -/
  | record (value : α) (length : Nat)
  /-- That many bytes from the start of the record have to be there to get on. -/
  | wants (length : Nat)
  | malformed

/-- The size of the buffer. -/
def bufferSize : Nat := 65536

/-- The bytes from the reading position on, the first `buffered` of them in the buffer.
`exhausted` says that the last attempt to fill the buffer found nothing. -/
structure Window where
  rest : List UInt8
  buffered : Nat
  exhausted : Bool

namespace Window

/-- A window on a whole capture, after the buffer was filled once. -/
def new (bytes : List UInt8) : Window := ⟨bytes, min bufferSize bytes.length, false⟩

/-- Fills the buffer up. -/
def refill (w : Window) : Window :=
  let added := ((w.rest.drop w.buffered).take (bufferSize - w.buffered)).length
  { w with buffered := w.buffered + added, exhausted := added == 0 }

/-- Moves past a record. -/
def skip (w : Window) (n : Nat) : Window :=
  { w with rest := w.rest.drop n, buffered := w.buffered - n }

/-- Reads records until the end or an error; `scan` gets the state, the number of buffered bytes
and the bytes, and yields records with the state after them. The fuel bounds the number of steps.
-/
def readFrom {σ α : Type} (context : String) (scan : σ → Nat → List UInt8 → Scan (α × σ)) :
    Nat → σ → Window → List α × Option SourceError
  | 0, _, _ => ([], none)
  | fuel + 1, state, w =>
    if w.buffered == 0 && w.exhausted then ([], none)
    else
      match scan state w.buffered w.rest with
      | .record (value, state) n =>
        let (values, stop) := readFrom context scan fuel state (w.skip n)
        (value :: values, stop)
      | .malformed => ([], some (.malformed context))
      | .wants n =>
        -- The end of the capture is told before the size of the record.
        if w.exhausted then ([], some (.truncated context))
        else if bufferSize ≤ n then ([], some (.malformed context))
        else readFrom context scan fuel state w.refill

/-- Reads all records of a window. Every step consumes bytes or fills the buffer. -/
def read {σ α : Type} (context : String) (scan : σ → Nat → List UInt8 → Scan (α × σ)) (state : σ)
    (w : Window) : List α × Option SourceError :=
  readFrom context scan (2 * w.rest.length + 4) state w

end Window

end FlowWatch.Capture
