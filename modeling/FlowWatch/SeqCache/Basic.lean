/-
The sequence cache: who is still waiting to be acknowledged, and since when.

An entry maps a stream point to the time at which a segment ending there was seen. Entries stand
in recency order, the least recently pushed first. The store is a slab: nodes live in an array,
the order is a doubly linked list through them, an index finds the node of a key, and the places
of removed nodes are kept for reuse. Every change of the order touches a node and its neighbours
only.

A cache has two more properties: an optional greatest age, by which a push and a purge drop
entries from the old end, and a closed state, in which pushes and pulls are refused.
-/
import Std.Data.HashMap
import FlowWatch.Flow
import FlowWatch.Time.Instant

set_option autoImplicit false

namespace FlowWatch

/-- One slab place: an entry and its neighbours in recency order. -/
structure CacheNode where
  key : StreamPoint
  seen : Instant
  prev : Option Nat
  next : Option Nat
  deriving Repr

/-- The refusal of a closed cache. -/
inductive CacheRefusal where
  | closed
  deriving DecidableEq, Repr

namespace CacheRefusal

/-- The refusal in words. -/
def message : CacheRefusal → String
  | .closed => "sequence cache is closed"

end CacheRefusal

/-- A recency-ordered map from stream points to the time they were seen. -/
structure SeqCache where
  maxAge : Option Span
  closed : Bool
  index : Std.HashMap StreamPoint Nat
  nodes : Array CacheNode
  vacant : List Nat
  head : Option Nat
  tail : Option Nat

namespace SeqCache

/-- An open cache without entries; without a greatest age nothing expires. -/
def new (maxAge : Option Span) : SeqCache where
  maxAge := maxAge
  closed := false
  index := ∅
  nodes := #[]
  vacant := []
  head := none
  tail := none

/-- The number of entries. -/
def size (c : SeqCache) : Nat := c.index.size

/-- The number of slab places, in use or vacant. -/
def allocated (c : SeqCache) : Nat := c.nodes.size

/-! ## The linked list -/

/-- Changes the node at place `i`. -/
def modifyNode (c : SeqCache) (i : Nat) (f : CacheNode → CacheNode) : SeqCache :=
  { c with nodes := c.nodes.modify i f }

/-- Puts the detached place `i` at the recent end. -/
def append (c : SeqCache) (i : Nat) : SeqCache :=
  let tail := c.tail
  let c := c.modifyNode i fun n => { n with prev := tail, next := none }
  match tail with
  | some t => { c.modifyNode t (fun n => { n with next := some i }) with tail := some i }
  | none => { c with head := some i, tail := some i }

/-- Takes place `i` out of the order and joins its neighbours. -/
def detach (c : SeqCache) (i : Nat) : SeqCache :=
  match c.nodes[i]? with
  | none => c
  | some node =>
    -- A place without a neighbour on one side is that end of the order.
    let c := match node.prev with
      | some p => c.modifyNode p fun n => { n with next := node.next }
      | none => { c with head := node.next }
    let c := match node.next with
      | some q => c.modifyNode q fun n => { n with prev := node.prev }
      | none => { c with tail := node.prev }
    c.modifyNode i fun n => { n with prev := none, next := none }

/-- Adds a new key at the recent end, in a vacant place if there is one. -/
def addNew (c : SeqCache) (key : StreamPoint) (seen : Instant) : SeqCache :=
  let node : CacheNode := ⟨key, seen, none, none⟩
  match c.vacant with
  | i :: vacant =>
    -- The place left last is taken first.
    let c := { c with vacant := vacant, index := c.index.insert key i }
    (c.modifyNode i fun _ => node).append i
  | [] =>
    let i := c.nodes.size
    append { c with nodes := c.nodes.push node, index := c.index.insert key i } i

/-- Removes the entry at place `i`, which becomes vacant. -/
def drop (c : SeqCache) (i : Nat) : SeqCache :=
  match c.nodes[i]? with
  | none => c
  | some node =>
    let c := c.detach i
    { c with index := c.index.erase node.key, vacant := i :: c.vacant }

/-! ## Expiry -/

/-- Drops entries from the old end while they are older than `maxAge` at `now`; at most `fuel` of
them. Returns how many. -/
def dropExpired (now : Instant) (maxAge : Span) : Nat → SeqCache → SeqCache × Nat
  | 0, c => (c, 0)
  | fuel + 1, c =>
    match c.head with
    | none => (c, 0)
    | some i =>
      match c.nodes[i]? with
      | none => (c, 0)
      | some node =>
        if now - node.seen ≤ maxAge then (c, 0)
        else
          let (c, n) := dropExpired now maxAge fuel (c.drop i)
          (c, n + 1)

/-- Drops what has expired at `now` and returns the number of dropped entries. Without a greatest
age nothing expires. -/
def purge (c : SeqCache) (now : Instant) : SeqCache × Nat :=
  match c.maxAge with
  | none => (c, 0)
  | some maxAge => dropExpired now maxAge c.size c

/-! ## Reading and writing -/

/-- Records that `key` was seen. What has expired by then goes first. A known key becomes the most
recent one with the new time; the answer says whether it was known. -/
def push (c : SeqCache) (key : StreamPoint) (seen : Instant) :
    SeqCache × Except CacheRefusal Bool :=
  if c.closed then (c, .error .closed)
  else
    -- Expiry comes before the look-up, so an expired entry of the same key is not found any more.
    let c := (c.purge seen).1
    match c.index[key]? with
    | some i =>
      (((c.detach i).append i).modifyNode i fun n => { n with seen := seen }, .ok true)
    | none => (c.addNew key seen, .ok false)

/-- Removes the entries of `flow` from place `cursor` on toward the old end. -/
def removeBack (flow : Flow) : Nat → Option Nat → SeqCache → SeqCache
  | 0, _, c => c
  | _ + 1, none, c => c
  | fuel + 1, some i, c =>
    match c.nodes[i]? with
    | none => c
    | some node =>
      -- The neighbour is read before the node goes.
      removeBack flow fuel node.prev (if node.key.flow = flow then c.drop i else c)

/-- Walks the entries of `key.flow` from place `cursor` on toward the recent end. Each one at or
before the position after `key` is removed and becomes the candidate; the first one beyond it ends
the walk. -/
def takeCovered (key : StreamPoint) :
    Nat → Option Nat → Option (Sequence × Instant) → SeqCache →
      SeqCache × Option (Sequence × Instant)
  | 0, _, candidate, c => (c, candidate)
  | _ + 1, none, candidate, c => (c, candidate)
  | fuel + 1, some i, candidate, c =>
    match c.nodes[i]? with
    | none => (c, candidate)
    | some node =>
      -- Entries of other flows lie in between and are passed over.
      if node.key.flow ≠ key.flow then takeCovered key fuel node.next candidate c
      else if !node.key.seq.atOrBefore (key.seq.advance 1) then (c, candidate)
      else takeCovered key fuel node.next (some (node.key.seq, node.seen)) (c.drop i)

/-- Whether a covered position is near enough to an acknowledgment to have been meant by it. -/
def isNear (seq ack : Sequence) : Bool := seq == ack.advance 1 || seq == ack.retreat 1

/-- Resolves an acknowledgment to the time of the send it answers. An exact hit removes the entry
and every older one of its flow. Otherwise all entries the acknowledgment covers are removed, and
the last of them answers if it is one position away. -/
def pull (c : SeqCache) (key : StreamPoint) : SeqCache × Except CacheRefusal (Option Instant) :=
  if c.closed then (c, .error .closed)
  else
    match c.index[key]? with
    | some i =>
      let seen := c.nodes[i]?.map (·.seen)
      (removeBack key.flow c.nodes.size (some i) c, .ok seen)
    | none =>
      -- What is covered goes, whether or not its last entry is near enough to answer.
      let (c, candidate) := takeCovered key c.nodes.size c.head none c
      (c, .ok ((candidate.filter fun e => isNear e.1 key.seq).map (·.2)))

/-! ## Teardown -/

/-- Drops all entries and places, and closes the cache. -/
def shut (c : SeqCache) : SeqCache :=
  { c with closed := true, index := ∅, nodes := #[], vacant := [], head := none, tail := none }

/-- Opens the cache again. -/
def reopen (c : SeqCache) : SeqCache := { c with closed := false }

end SeqCache

end FlowWatch
