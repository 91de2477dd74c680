/-
The tracker: segments in, sessions out.

A tracker watches one interface. Each segment is resolved to the session of its connection and
handed over; a segment without a session is dropped. A dump, if there is one, gets every segment
first, and what becomes of it there does not matter to the sessions.

Every call is one step, as in the pool: it includes the turn of the session, which in the program
is a task of its own behind a queue. So nothing is left waiting between two calls.
-/
import FlowWatch.Dump
import FlowWatch.Pool.Basic

set_option autoImplicit false

namespace FlowWatch

/-- A tracker of one interface. -/
structure Tracker where
  interface : String
  pool : Pool

namespace Tracker

/-- A tracker without sessions. -/
def new (interface : String) (config : Config) (registry : Registry) : Tracker where
  interface := interface
  pool := .new config registry

/-- Takes in one segment. -/
def feed (t : Tracker) (s : Segment) : Tracker :=
  match t.pool.resolve s.flow s.flags.isOpening s.flags.isEnding s.seen with
  | (pool, none) => { t with pool := pool }
  | (pool, some h) => { t with pool := (pool.submit h s).1 }

/-- Records one segment in the dump, if there is one, and takes it in. -/
def observe {σ : Type} (t : Tracker) (dump : Option (Dump.Writer σ)) (s : Segment) :
    Tracker × Option (Dump.Writer σ) :=
  (t.feed s, dump.map fun w => (w.record s).1)

/-- Closes every session without activity since `cutoff`. -/
def flushOlder (t : Tracker) (cutoff : Instant) : Tracker :=
  { t with pool := (t.pool.flushOlder cutoff).1 }

/-- Closes every session. -/
def flushAll (t : Tracker) : Tracker := { t with pool := t.pool.flushAll.1 }

/-- What there is to report, and the tracker that has reported it. -/
def takeJournal (t : Tracker) : Array Notice × Tracker :=
  (t.pool.journal, { t with pool := { t.pool with journal := #[] } })

end Tracker

end FlowWatch
