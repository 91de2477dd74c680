/-
The session pool: connections to slots, and slots used again.

Closing a session takes two steps, which may lie apart: the session begins to close, after which
its slot takes no segments, and later the slot is taken back. Until then the slot stays mapped to
the connection, so no second session of that connection can be opened. Either step has an effect
only once per generation.

Slots are made in blocks: the first growth makes the configured number, every later one doubles
them. There is always memory for them.

Every call here is one step that includes the turn of the session it is for. The program puts a
segment or a request to close into the session's queue, and the session takes its turn when it is
scheduled; a call is that turn together with all that follows from it. How long a queue may get
does not matter then, but whether there can be one does (`resolve?`).
-/
import Std.Data.HashMap
import FlowWatch.Pool.Slot
import FlowWatch.Session.Watermark

set_option autoImplicit false

namespace FlowWatch

/-- A pool. `journal` is what there is to report, in order. -/
structure Pool where
  config : Config
  registry : Registry
  active : Std.HashMap Flow Nat
  slots : Array Slot
  free : List Nat
  generation : Nat
  watermark : Watermark
  counters : Counters
  journal : Array Notice

namespace Pool

/-- A pool without slots. -/
def new (config : Config) (registry : Registry) : Pool where
  config := config
  registry := registry
  active := ∅
  slots := #[]
  free := []
  generation := 0
  watermark := {}
  counters := {}
  journal := #[]

/-- The figures of the pool. -/
def figures (p : Pool) : PoolFigures := ⟨p.slots.size, p.free.length, p.active.size, p.generation⟩

/-- Adds to what there is to report. -/
def note (p : Pool) (notices : List Notice) : Pool :=
  { p with journal := p.journal ++ notices.toArray }

/-- Replaces a slot. -/
def setSlot (p : Pool) (i : Nat) (slot : Slot) : Pool :=
  { p with slots := p.slots.setIfInBounds i slot }

/-- The slot of a connection in either direction. -/
def slotOf (p : Pool) (key : Flow) : Option Nat := p.active[key]? <|> p.active[key.reverse]?

/-- The handle of an open slot. -/
def handleOf (p : Pool) (i : Nat) : Option Handle := do
  let slot ← p.slots[i]?
  let session ← slot.session?
  some ⟨i, slot.generation, session.key⟩

/-! ## Opening -/

/-- The number of slots the next growth adds. -/
def growth (p : Pool) : Nat :=
  if p.slots.size == 0 then p.config.initialPoolCapacity.toNat else p.slots.size

/-- Makes more slots; the lowest new one will be taken first. -/
def grow (p : Pool) : Pool :=
  let before := p.slots.size
  let added := p.growth
  note { p with
    slots := p.slots ++ Array.replicate added (Slot.fresh p.config.rttMaxAge)
    -- The free list is taken from the front.
    free := List.range' before added ++ p.free } [.poolGrew before (before + added)]

/-- The pool's figures are reported each time this many more sessions were opened. -/
def statisticsPeriod : Nat := 32768

/-- Opens a session in the free slot `i`; its queue can be made. -/
def openAt (p : Pool) (i : Nat) (free : List Nat) (key : Flow) (now : Instant) :
    Pool × Option Handle :=
  let p := { p with free := free, generation := p.generation + 1 }
  -- The figures are those before the session counts as active.
  let p := if p.generation % statisticsPeriod == 0 then p.note [.poolStatistics p.figures] else p
  let p :=
    { p with
      slots := p.slots.modify i fun slot => slot.openWith key now p.generation
      active := p.active.insert key i }
  (p, some ⟨i, p.generation, key⟩)

/-- Opens a session in a free slot, making slots if there is none. -/
def openSession (p : Pool) (key : Flow) (now : Instant) : Pool × Option Handle :=
  let p := if p.free.isEmpty then p.grow else p
  match p.free with
  | [] => (p, none)
  | i :: free => p.openAt i free key now

/-- Finds the session of a connection, in either direction, or opens one. Only an initial SYN that
is no termination opens a session. A connection whose session is closing has no handle and opens
nothing. The call is taken to return (`resolve?`). -/
def resolve (p : Pool) (key : Flow) (isOpening isEnding : Bool) (now : Instant) :
    Pool × Option Handle :=
  let p := { p with watermark := p.watermark.raise now }
  match p.slotOf key with
  | some i => (p, p.handleOf i)
  | none => if !isOpening || isEnding then (p, none) else p.openSession key now

/-- What `resolve` gives, if the call returns. A session that opens needs a queue, and where none can
be made the call breaks off; the pool is not to be used after that. -/
def resolve? (p : Pool) (key : Flow) (isOpening isEnding : Bool) (now : Instant) :
    Option (Pool × Option Handle) :=
  let out := p.resolve key isOpening isEnding now
  -- A generation is counted just before the queue is made, and for nothing else.
  if out.1.generation == p.generation || p.config.hasQueue then some out else none

/-- Where queues can be made, every call returns. -/
theorem resolve?_of_hasQueue {p : Pool} (h : p.config.hasQueue = true) (key : Flow)
    (isOpening isEnding : Bool) (now : Instant) :
    p.resolve? key isOpening isEnding now = some (p.resolve key isOpening isEnding now) := by
  simp [resolve?, h]

/-- Only a call that opens a session breaks off. -/
theorem resolve?_eq_none_iff {p : Pool} {key : Flow} {isOpening isEnding : Bool} {now : Instant} :
    p.resolve? key isOpening isEnding now = none ↔
      (p.resolve key isOpening isEnding now).1.generation ≠ p.generation ∧
        p.config.hasQueue = false := by
  simp [resolve?]

/-! ## Closing -/

/-- Begins to close the session of a generation. Only the first attempt succeeds, and it yields
the session. -/
def startClosing (p : Pool) (i generation : Nat) : Pool × Option Session :=
  match p.slots[i]? with
  | none => (p, none)
  | some slot =>
    match slot.phase with
    | .open session =>
      if slot.generation = generation then
        (p.setSlot i { slot with phase := .closed }, some session)
      else (p, none)
    | _ => (p, none)

/-- Drops the mapping of a flow if it leads to slot `i`. -/
def unmap (active : Std.HashMap Flow Nat) (i : Nat) (key : Flow) : Std.HashMap Flow Nat :=
  if active[key]? = some i then active.erase key else active

/-- Takes a slot back from a generation. Only the first release of a generation has an effect. -/
def reclaim (p : Pool) (i : Nat) (key : Flow) (generation : Nat) : Pool :=
  match p.slots[i]? with
  | none => p
  | some slot =>
    -- A second release finds no owner, or the owner of a later session.
    if slot.owner = some generation then
      { p with
        active := unmap (unmap p.active i key) i key.reverse
        slots := p.slots.setIfInBounds i { slot with owner := none }
        free := i :: p.free }
    else p

/-- Tears a slot's cache down. -/
def clearCache (p : Pool) (i : Nat) : Pool :=
  { p with slots := p.slots.modify i fun slot => { slot with cache := slot.cache.shut } }

/-- Closes the session of a generation: summarises it and releases its slot. Nothing happens if it
is not open any more. -/
def close (p : Pool) (i generation : Nat) (reason : CloseReason) : Pool :=
  match p.startClosing i generation with
  | (p, none) => p
  | (p, some session) =>
    ((p.clearCache i).note [.sessionClosed (session.summary reason)]).reclaim i session.key
      generation

/-! ## Segments and ticks -/

/-- The slot at `i`, and the pool with a blank in its place: what is taken out belongs to nobody
else, so a large cache in it can be changed in place. -/
@[noinline] def takeSlot (p : Pool) (i : Nat) : Option Slot × Pool :=
  match p.slots[i]? with
  | none => (none, p)
  | some slot => (some slot, p.setSlot i (.fresh none))

/-- Lets the slot at `i` go through `f`. -/
def withSlot {α : Type} (p : Pool) (i : Nat) (f : Slot → Slot × Option α) :
    Pool × Option (Nat × α) :=
  match p.takeSlot i with
  | (none, p) => (p, none)
  | (some slot, p) =>
    let (slot, out) := f slot
    let generation := slot.generation
    (p.setSlot i slot, out.map fun a => (generation, a))

/-- The blank is never seen. -/
theorem withSlot_eq {α : Type} (p : Pool) (i : Nat) (f : Slot → Slot × Option α) :
    p.withSlot i f =
      match p.slots[i]? with
      | none => (p, none)
      | some slot =>
        (p.setSlot i (f slot).1, (f slot).2.map fun a => ((f slot).1.generation, a)) := by
  unfold withSlot takeSlot
  cases p.slots[i]? with
  | none => rfl
  | some slot => simp [setSlot]

/-- Takes in what a session leaves behind, and closes the session if it is done. -/
def settle (i : Nat) (reason : CloseReason) : Pool × Option (Nat × Slot.Effect) → Pool
  | (p, none) => p
  | (p, some (generation, effect)) =>
    let p := { p with counters := effect.counters }.note effect.notices
    if effect.done then p.close i generation reason else p

/-- Hands a segment to the session in slot `i`. The segment that completes the termination is
counted before the session closes. -/
def deliver (p : Pool) (i : Nat) (segment : Segment) : Pool :=
  let config := p.config
  let registry := p.registry
  let counters := p.counters
  settle i .finish (p.withSlot i fun slot => slot.receive config registry counters segment)

/-- A maintenance tick of the session in slot `i`, when `elapsed` has passed since the watermark was
last raised or confirmed. -/
def tickAfter (p : Pool) (elapsed : Span) (i : Nat) : Pool :=
  let config := p.config
  let counters := p.counters
  let now := p.watermark.after elapsed
  settle i .timeout (p.withSlot i fun slot => slot.tick config counters now)

/-- A maintenance tick of the session in slot `i`, at the newest capture time. -/
def tick (p : Pool) (i : Nat) : Pool := p.tickAfter 0 i

/-- A maintenance tick of every open session. -/
def tickAll (p : Pool) : Pool := (p.active.toList.map (·.2)).foldl tick p

/-! ## Handles -/

/-- Accepts a handle whose session is open. -/
def accept (p : Pool) (h : Handle) : Except HandleRefusal Unit :=
  match p.slots[h.slot]? with
  | none => .error .stale
  | some slot =>
    if slot.generation ≠ h.generation then .error .stale
    else if slot.isOpen then .ok () else .error .closed

/-- Hands a segment to the session of a handle. -/
def submit (p : Pool) (h : Handle) (segment : Segment) : Pool × Except HandleRefusal Unit :=
  match p.accept h with
  | .error e => (p, .error e)
  | .ok () => (p.deliver h.slot segment, .ok ())

/-- Closes the session of a handle. -/
def closeBy (p : Pool) (h : Handle) (reason : CloseReason) : Pool × Except HandleRefusal Unit :=
  match p.accept h with
  | .error e => (p, .error e)
  | .ok () => (p.close h.slot h.generation reason, .ok ())

/-! ## Flushing -/

/-- The open sessions whose slot is selected: slots and generations. -/
def selected (p : Pool) (select : Slot → Bool) : List (Nat × Nat) :=
  p.active.toList.filterMap fun (_, i) => do
    let slot ← p.slots[i]?
    let generation ← slot.owner
    if slot.isOpen && select slot then some (i, generation) else none

/-- Closes the selected sessions and returns how many there were. -/
def flushSelected (p : Pool) (select : Slot → Bool) : Pool × Nat :=
  let targets := p.selected select
  (targets.foldl (fun p t => p.close t.1 t.2 .flush) p, targets.length)

/-- Closes every session without activity since `cutoff`. -/
def flushOlder (p : Pool) (cutoff : Instant) : Pool × Nat :=
  p.flushSelected fun slot => slot.lastSeen < cutoff

/-- Closes every session. -/
def flushAll (p : Pool) : Pool × Nat := p.flushSelected fun _ => true

/-- The open sessions. -/
def openSessions (p : Pool) : List OpenSession :=
  p.active.toList.filterMap fun (_, i) => do
    let slot ← p.slots[i]?
    let session ← slot.session?
    some ⟨session.key, session.firstSeen, slot.lastSeen⟩

end Pool

end FlowWatch
