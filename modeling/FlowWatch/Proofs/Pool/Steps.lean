/-
What one step of a pool does.

Everything a pool is asked for comes down to three steps: resolve a connection, let the session in a
slot attend to an input, close the session in a slot. Each is said here once, as an equation, and
nothing above this file opens the definitions of the pool again.

A segment and a tick are the same step seen from the pool. The session in the slot has a turn
(`afterTurn`), and if it is done it is closed and its slot taken back (`retire`).
-/
import FlowWatch.Pool.Basic
import FlowWatch.Proofs.Session.Lifecycle

set_option autoImplicit false

namespace FlowWatch

/-- One step of a pool. -/
inductive PoolStep where
  | resolve (key : Flow) (isOpening isEnding : Bool) (now : Instant)
  | attend (slot : Nat) (input : Lifecycle.Input)
  | close (slot generation : Nat) (reason : CloseReason)

/-- One session among all a pool has opened, and the key it was opened under. -/
structure Tenant where
  generation : Nat
  key : Flow
  deriving DecidableEq

namespace Slot

/-- The slot after a turn of its session. -/
def turned (slot : Slot) (turn : Lifecycle.Turn) (input : Lifecycle.Input) : Slot :=
  { slot with
    phase := .open turn.next.session
    cache := turn.next.cache
    lastSeen := input.touch slot.lastSeen }

/-- The slot after its session has been closed and it has been taken back. -/
def vacated (slot : Slot) : Slot :=
  { slot with phase := .closed, owner := none, cache := slot.cache.shut }

variable {slot : Slot} {session : Session}

theorem session?_eq_some : slot.session? = some session ↔ slot.phase = .open session := by
  unfold Slot.session?
  rcases slot.phase with _ | s | _ <;> simp

theorem receive_of_no_session (config : Config) (registry : Registry) (counters : Counters)
    (s : Segment) (h : slot.session? = none) :
    slot.receive config registry counters s = (slot, none) := by
  rcases slot with ⟨_ | session | _, generation, owner, lastSeen, cache⟩
  · rfl
  · exact absurd h (by simp [Slot.session?])
  · rfl

theorem tick_of_no_session (config : Config) (counters : Counters) (now : Option Instant)
    (h : slot.session? = none) : slot.tick config counters now = (slot, none) := by
  rcases slot with ⟨_ | session | _, generation, owner, lastSeen, cache⟩
  · rfl
  · exact absurd h (by simp [Slot.session?])
  · rfl

end Slot

namespace Pool

/-- The pool after an input to slot `i`. -/
def attend (p : Pool) (i : Nat) : Lifecycle.Input → Pool
  | .segment s => p.deliver i s
  | .tick now => settle i .timeout (p.withSlot i fun slot => slot.tick p.config p.counters now)

/-- The pool after a step. -/
def step (p : Pool) : PoolStep → Pool
  | .resolve key isOpening isEnding now => (p.resolve key isOpening isEnding now).1
  | .attend i input => p.attend i input
  | .close i generation reason => p.close i generation reason

/-- The pool after a list of steps. -/
def steps (p : Pool) (ss : List PoolStep) : Pool := ss.foldl step p

theorem steps_cons (p : Pool) (s : PoolStep) (ss : List PoolStep) :
    p.steps (s :: ss) = (p.step s).steps ss := rfl

theorem steps_append (p : Pool) (ss ts : List PoolStep) :
    p.steps (ss ++ ts) = (p.steps ss).steps ts := List.foldl_append

/-- The slot at `i` and its session, if one is open. -/
def occupant (p : Pool) (i : Nat) : Option (Slot × Session) := do
  let slot ← p.slots[i]?
  let session ← slot.session?
  some (slot, session)

/-- The session in slot `i`. -/
def tenantAt (p : Pool) (i : Nat) : Option Tenant :=
  (p.occupant i).map fun o => ⟨o.1.generation, o.2.key⟩

/-- The session a step is about: the one that takes the input, or the one that is closed. -/
def tenantOf (p : Pool) : PoolStep → Option Tenant
  | .resolve .. => none
  | .attend i input =>
    if (p.occupant i).any fun o => input.isFor o.2 then p.tenantAt i else none
  | .close i generation _ =>
    if (p.occupant i).any fun o => o.1.generation == generation then p.tenantAt i else none

/-! ## The parts of a step -/

/-- The pool that has seen a segment of the time `now`. -/
def raised (p : Pool) (now : Instant) : Pool := { p with watermark := p.watermark.raise now }

/-- The pool with a free slot, if it can have one. -/
def stocked (p : Pool) : Pool := if p.free.isEmpty then p.grow else p

/-- The turn of a session on an input. -/
def turnOf (p : Pool) (slot : Slot) (session : Session) (input : Lifecycle.Input) :
    Lifecycle.Turn :=
  Lifecycle.turn p.config p.registry p.counters ⟨session, slot.cache⟩ input

/-- The pool after the session in slot `i` has had a turn. -/
def afterTurn (p : Pool) (i : Nat) (slot : Slot) (turn : Lifecycle.Turn)
    (input : Lifecycle.Input) : Pool :=
  { p with
    slots := p.slots.setIfInBounds i (slot.turned turn input)
    counters := turn.counters
    journal := p.journal ++ turn.notices.toArray }

/-- The pool after the session in slot `i` has been closed and the slot taken back. -/
def retire (p : Pool) (i : Nat) (slot : Slot) (session : Session) (reason : CloseReason) : Pool :=
  { p with
    active := unmap (unmap p.active i session.key) i session.key.reverse
    slots := p.slots.setIfInBounds i slot.vacated
    free := i :: p.free
    journal := p.journal ++ #[.sessionClosed (session.summary reason)] }

variable {p : Pool} {i : Nat} {slot : Slot} {session : Session}

theorem occupant_eq_some :
    p.occupant i = some (slot, session) ↔ p.slots[i]? = some slot ∧ slot.phase = .open session := by
  unfold occupant
  rcases p.slots[i]? with _ | a
  · simp
  · rcases ha : a.phase with _ | s | _ <;> simp [Slot.session?, ha] <;> grind

theorem occupant_eq_none :
    p.occupant i = none ↔ ∀ slot, p.slots[i]? = some slot → slot.session? = none := by
  unfold occupant
  rcases p.slots[i]? with _ | a
  · simp
  · rcases ha : a.session? with _ | s <;> simp [ha]

theorem occupant_unique {a b : Slot} {s t : Session} (ha : p.occupant i = some (a, s))
    (hb : p.occupant i = some (b, t)) : a = b ∧ s = t :=
  Prod.mk.inj (Option.some.inj (ha.symm.trans hb))

theorem isOpen_of_occupant (ho : p.occupant i = some (slot, session)) : slot.isOpen = true := by
  unfold Slot.isOpen
  rw [Slot.session?_eq_some.mpr (occupant_eq_some.mp ho).2]
  rfl

theorem handleOf_of_occupant (ho : p.occupant i = some (slot, session)) :
    p.handleOf i = some ⟨i, slot.generation, session.key⟩ := by
  obtain ⟨hs, hp⟩ := occupant_eq_some.mp ho
  unfold handleOf
  rw [hs]
  simp [Slot.session?_eq_some.mpr hp]

theorem handleOf_eq_some {h : Handle} :
    p.handleOf i = some h ↔
      ∃ slot session, p.occupant i = some (slot, session) ∧
        h = ⟨i, slot.generation, session.key⟩ := by
  unfold handleOf occupant
  rcases p.slots[i]? with _ | slot
  · simp
  · rcases ha : slot.session? with _ | session
    · simp [ha]
    · simp [ha, eq_comm]

/-- A handle depends on the session in the slot alone. -/
theorem handleOf_congr {q : Pool} (h : q.occupant i = p.occupant i) :
    q.handleOf i = p.handleOf i := by
  refine Option.ext fun a => ?_
  rw [handleOf_eq_some, handleOf_eq_some, h]

theorem unmapped_of_slotOf {key : Flow} (h : p.slotOf key = none) :
    p.active[key]? = none ∧ p.active[key.reverse]? = none := by
  unfold slotOf at h
  rcases hk : p.active[key]? with _ | j
  · rw [hk] at h
    exact ⟨rfl, h⟩
  · rw [hk] at h
    exact absurd h (by simp)

/-- A slot put back where it was taken from. -/
theorem setSlot_self (hs : p.slots[i]? = some slot) : p.setSlot i slot = p := by
  obtain ⟨hi, rfl⟩ := Array.getElem?_eq_some_iff.mp hs
  unfold setSlot Array.setIfInBounds
  rw [dif_pos hi, Array.set_getElem_self]

/-! ## The slots after each part -/

theorem occupant_of_slots {q : Pool} (h : q.slots[i]? = p.slots[i]?) :
    q.occupant i = p.occupant i := by
  unfold occupant
  rw [h]

theorem slots_grow (j : Nat) :
    p.grow.slots[j]? =
      if p.slots.size ≤ j ∧ j < p.slots.size + p.growth then some (.fresh p.config.rttMaxAge)
      else p.slots[j]? := by
  unfold grow note
  dsimp only
  rw [Array.getElem?_append, Array.getElem?_replicate]
  split_ifs <;> grind

/-- A slot that is replaced, seen from all slots. -/
theorem getElem?_slots_set (hi : i < p.slots.size) (a : Slot) (j : Nat) :
    (p.slots.setIfInBounds i a)[j]? = if i = j then some a else p.slots[j]? := by
  rw [Array.getElem?_setIfInBounds]
  split_ifs <;> rfl

theorem slots_afterTurn (hi : i < p.slots.size) (slot : Slot) (turn : Lifecycle.Turn)
    (input : Lifecycle.Input) (j : Nat) :
    (p.afterTurn i slot turn input).slots[j]? =
      if i = j then some (slot.turned turn input) else p.slots[j]? :=
  getElem?_slots_set hi _ j

theorem slots_retire (hi : i < p.slots.size) (slot : Slot) (session : Session)
    (reason : CloseReason) (j : Nat) :
    (p.retire i slot session reason).slots[j]? =
      if i = j then some slot.vacated else p.slots[j]? :=
  getElem?_slots_set hi _ j

theorem lt_size (ho : p.occupant i = some (slot, session)) : i < p.slots.size :=
  (Array.getElem?_eq_some_iff.mp (occupant_eq_some.mp ho).1).1

/-- New slots are idle, so growth shows in no session. -/
theorem occupant_grow (j : Nat) : p.grow.occupant j = p.occupant j := by
  by_cases hj : p.slots.size ≤ j ∧ j < p.slots.size + p.growth
  · have hold : p.occupant j = none :=
      occupant_eq_none.mpr fun a ha => absurd (Array.getElem?_eq_some_iff.mp ha).1 (by omega)
    rw [hold]
    refine occupant_eq_none.mpr fun a ha => ?_
    rw [slots_grow, if_pos hj] at ha
    rw [← Option.some.inj ha]
    rfl
  · refine occupant_of_slots ?_
    rw [slots_grow, if_neg hj]

theorem occupant_stocked (j : Nat) : p.stocked.occupant j = p.occupant j := by
  unfold Pool.stocked
  split_ifs
  · exact occupant_grow j
  · rfl

theorem slotOf_stocked {key : Flow} : p.stocked.slotOf key = p.slotOf key := by
  unfold Pool.stocked
  split_ifs <;> rfl

theorem config_stocked : p.stocked.config = p.config := by
  unfold Pool.stocked
  split_ifs <;> rfl

theorem generation_stocked : p.stocked.generation = p.generation := by
  unfold Pool.stocked
  split_ifs <;> rfl

theorem occupant_afterTurn (ho : p.occupant i = some (slot, session)) (turn : Lifecycle.Turn)
    (input : Lifecycle.Input) (j : Nat) :
    (p.afterTurn i slot turn input).occupant j =
      if i = j then some (slot.turned turn input, turn.next.session) else p.occupant j := by
  have hslots := slots_afterTurn (lt_size ho) slot turn input j
  split_ifs with hj
  · subst hj
    rw [if_pos rfl] at hslots
    exact occupant_eq_some.mpr ⟨hslots, rfl⟩
  · rw [if_neg hj] at hslots
    exact occupant_of_slots hslots

theorem occupant_retire (ho : p.occupant i = some (slot, session)) (reason : CloseReason)
    (j : Nat) :
    (p.retire i slot session reason).occupant j = if i = j then none else p.occupant j := by
  have hslots := slots_retire (lt_size ho) slot session reason j
  split_ifs with hj
  · rw [if_pos hj] at hslots
    refine occupant_eq_none.mpr fun a ha => ?_
    rw [← Option.some.inj (hslots.symm.trans ha)]
    rfl
  · rw [if_neg hj] at hslots
    exact occupant_of_slots hslots

theorem occupant_afterTurn_self (ho : p.occupant i = some (slot, session))
    (turn : Lifecycle.Turn) (input : Lifecycle.Input) :
    (p.afterTurn i slot turn input).occupant i =
      some (slot.turned turn input, turn.next.session) := by
  rw [occupant_afterTurn ho, if_pos rfl]

/-- A last turn leaves the slot empty. -/
theorem occupant_retire_afterTurn (ho : p.occupant i = some (slot, session))
    (turn : Lifecycle.Turn) (input : Lifecycle.Input) (reason : CloseReason) (j : Nat) :
    ((p.afterTurn i slot turn input).retire i (slot.turned turn input) turn.next.session
      reason).occupant j = if i = j then none else p.occupant j := by
  rw [occupant_retire (occupant_afterTurn_self ho turn input), occupant_afterTurn ho]
  split_ifs <;> rfl

/-- What opening a session changes beside what there is to report. -/
theorem openAt_frame (free : List Nat) (key : Flow) (now : Instant) :
    let q := (p.openAt i free key now).1
    q.config = p.config ∧ q.registry = p.registry ∧ q.counters = p.counters ∧
      q.free = free ∧ q.generation = p.generation + 1 ∧ q.active = p.active.insert key i ∧
      q.slots = p.slots.modify i fun slot => slot.openWith key now (p.generation + 1) := by
  unfold openAt
  dsimp only
  split_ifs <;> exact ⟨rfl, rfl, rfl, rfl, rfl, rfl, rfl⟩

theorem openAt_handle (free : List Nat) (key : Flow) (now : Instant) :
    (p.openAt i free key now).2 = some ⟨i, p.generation + 1, key⟩ := by
  unfold openAt
  dsimp only
  split_ifs <;> rfl

theorem active_openAt (free : List Nat) (key : Flow) (now : Instant) (k : Flow) :
    (p.openAt i free key now).1.active[k]? = if key = k then some i else p.active[k]? := by
  rw [(openAt_frame free key now).2.2.2.2.2.1, Std.HashMap.getElem?_insert]
  simp only [beq_iff_eq]

theorem slots_openAt (hs : p.slots[i]? = some slot) (free : List Nat) (key : Flow) (now : Instant)
    (j : Nat) :
    (p.openAt i free key now).1.slots[j]? =
      if i = j then some (slot.openWith key now (p.generation + 1)) else p.slots[j]? := by
  obtain ⟨-, -, -, -, -, -, hslots⟩ := openAt_frame (p := p) (i := i) free key now
  rw [hslots, Array.getElem?_modify]
  split_ifs with hj
  · subst hj
    rw [hs]
    rfl
  · rfl

theorem occupant_openAt (hs : p.slots[i]? = some slot) (free : List Nat) (key : Flow)
    (now : Instant) (j : Nat) :
    (p.openAt i free key now).1.occupant j =
      if i = j then some (slot.openWith key now (p.generation + 1), .new key now)
      else p.occupant j := by
  split_ifs with hj
  · subst hj
    refine occupant_eq_some.mpr ⟨?_, rfl⟩
    rw [slots_openAt hs, if_pos rfl]
  · refine occupant_of_slots ?_
    rw [slots_openAt hs, if_neg hj]

/-! ## Closing -/

theorem startClosing_of_occupant (ho : p.occupant i = some (slot, session)) :
    p.startClosing i slot.generation =
      (p.setSlot i { slot with phase := .closed }, some session) := by
  obtain ⟨hs, hp⟩ := occupant_eq_some.mp ho
  unfold startClosing
  rw [hs]
  simp only [hp, if_true]

theorem startClosing_of_other {generation : Nat}
    (h : ∀ slot session, p.occupant i = some (slot, session) → slot.generation ≠ generation) :
    p.startClosing i generation = (p, none) := by
  unfold startClosing
  rcases hs : p.slots[i]? with _ | slot
  · rfl
  · rcases hp : slot.phase with _ | session | _ <;> simp only [hp]
    rw [if_neg (h slot session (occupant_eq_some.mpr ⟨hs, hp⟩))]

theorem close_eq_self {generation : Nat} (reason : CloseReason)
    (h : ∀ slot session, p.occupant i = some (slot, session) → slot.generation ≠ generation) :
    p.close i generation reason = p := by
  unfold close
  rw [startClosing_of_other h]

theorem close_eq_retire (h : p.occupant i = some (slot, session))
    (ho : slot.owner = some slot.generation) (reason : CloseReason) :
    p.close i slot.generation reason = p.retire i slot session reason := by
  obtain ⟨hs, hp⟩ := occupant_eq_some.mp h
  obtain ⟨hi, -⟩ := Array.getElem?_eq_some_iff.mp hs
  unfold close startClosing
  rw [hs]
  simp only [hp, if_true]
  unfold clearCache note reclaim retire setSlot
  simp only [Array.getElem?_modify, Array.getElem?_setIfInBounds, if_true, hi, Option.map_some, ho]
  congr 1
  refine Array.ext_getElem? fun j => ?_
  simp only [Slot.vacated, Array.getElem?_modify, Array.getElem?_setIfInBounds]
  grind

theorem reclaim_of_owned {generation : Nat} (hs : p.slots[i]? = some slot)
    (ho : slot.owner = some generation) (key : Flow) :
    p.reclaim i key generation =
      { p with
        active := unmap (unmap p.active i key) i key.reverse
        slots := p.slots.setIfInBounds i { slot with owner := none }
        free := i :: p.free } := by
  unfold reclaim
  rw [hs]
  exact if_pos ho

theorem reclaim_of_other {generation : Nat}
    (h : ∀ slot, p.slots[i]? = some slot → slot.owner ≠ some generation) (key : Flow) :
    p.reclaim i key generation = p := by
  unfold reclaim
  rcases hs : p.slots[i]? with _ | slot
  · rfl
  · exact if_neg (h slot hs)

/-- Of the two mappings that are dropped only the first one exists, unless they are the same. -/
theorem getElem?_unmap_both {active : Std.HashMap Flow Nat} {key : Flow}
    (hk : active[key]? = some i) (halone : active[key.reverse]? = some i → key.reverse = key)
    (k : Flow) :
    (unmap (unmap active i key) i key.reverse)[k]? = if key = k then none else active[k]? := by
  have herase : unmap active i key = active.erase key := if_pos hk
  have hrev : (active.erase key)[key.reverse]? ≠ some i := by
    rw [Std.HashMap.getElem?_erase]
    simp only [beq_iff_eq]
    split_ifs with heq
    · simp
    · exact fun hr => heq (halone hr).symm
  rw [herase]
  unfold unmap
  rw [if_neg hrev, Std.HashMap.getElem?_erase]
  simp only [beq_iff_eq]

/-! ## Attending -/

/-- An input for an empty slot does nothing. -/
theorem attend_of_empty (h : p.occupant i = none) (input : Lifecycle.Input) :
    p.attend i input = p := by
  have hnone := occupant_eq_none.mp h
  cases input with
  | segment s =>
    unfold attend deliver
    dsimp only
    rw [withSlot_eq]
    rcases hs : p.slots[i]? with _ | slot
    · rfl
    · simp only [Slot.receive_of_no_session _ _ _ _ (hnone slot hs), setSlot_self hs,
        Option.map_none, settle]
  | tick now =>
    unfold attend
    dsimp only
    rw [withSlot_eq]
    rcases hs : p.slots[i]? with _ | slot
    · rfl
    · simp only [Slot.tick_of_no_session _ _ _ (hnone slot hs), setSlot_self hs, Option.map_none,
        settle]

/-- An input for somebody else does nothing. -/
theorem attend_of_not_for (h : p.occupant i = some (slot, session)) {input : Lifecycle.Input}
    (hf : input.isFor session = false) : p.attend i input = p := by
  obtain ⟨hs, hp⟩ := occupant_eq_some.mp h
  cases input with
  | segment s =>
    have hroute : session.route s.flow = none :=
      Option.isNone_iff_eq_none.mp (Option.isSome_eq_false_iff.mp hf)
    unfold attend deliver
    dsimp only
    rw [withSlot_eq, hs]
    obtain ⟨_, generation, owner, lastSeen, cache⟩ := slot
    subst hp
    simp only [Slot.receive, hroute, setSlot_self hs, Option.map_none, settle]
  | tick now => exact absurd hf (by simp [Lifecycle.Input.isFor])

/-- An input for the session in the slot is a turn of that session, and the end of it if it is
done. -/
theorem attend_of_for (h : p.occupant i = some (slot, session)) {input : Lifecycle.Input}
    (hf : input.isFor session = true) :
    p.attend i input =
      let turn := p.turnOf slot session input
      let q := p.afterTurn i slot turn input
      if turn.done then q.close i slot.generation input.reason else q := by
  obtain ⟨hs, hp⟩ := occupant_eq_some.mp h
  obtain ⟨_, generation, owner, lastSeen, cache⟩ := slot
  subst hp
  cases input with
  | segment s =>
    obtain ⟨direction, hroute⟩ := Option.isSome_iff_exists.mp hf
    unfold attend deliver
    dsimp only
    rw [withSlot_eq, hs]
    simp only [Slot.receive, hroute, Slot.touch, Option.map_some, settle, turnOf, Lifecycle.turn]
    rfl
  | tick now =>
    unfold attend
    dsimp only
    rw [withSlot_eq, hs]
    rfl

/-! ## Resolving -/

/-- A connection that has a slot. -/
theorem resolve_of_mapped {key : Flow} (h : p.slotOf key = some i) (isOpening isEnding : Bool)
    (now : Instant) :
    p.resolve key isOpening isEnding now = (p.raised now, p.handleOf i) := by
  have hraised : (p.raised now).slotOf key = some i := h
  unfold resolve
  dsimp only
  unfold raised at hraised ⊢
  rw [hraised]
  rfl

/-- A connection without a slot, and a segment that opens none. -/
theorem resolve_of_refused {key : Flow} (h : p.slotOf key = none) {isOpening isEnding : Bool}
    (hopen : (isOpening && !isEnding) = false) (now : Instant) :
    p.resolve key isOpening isEnding now = (p.raised now, none) := by
  have hraised : (p.raised now).slotOf key = none := h
  have hcond : (!isOpening || isEnding) = true := by
    revert hopen
    cases isOpening <;> cases isEnding <;> decide
  unfold resolve
  dsimp only
  unfold raised at hraised ⊢
  rw [hraised]
  dsimp only
  rw [if_pos hcond]

/-- A connection without a slot, and a segment that opens one. -/
theorem resolve_of_opening {key : Flow} (h : p.slotOf key = none) {isOpening isEnding : Bool}
    (hopen : (isOpening && !isEnding) = true) (now : Instant) :
    p.resolve key isOpening isEnding now =
      match (p.raised now).stocked.free with
      | [] => ((p.raised now).stocked, none)
      | i :: free => (p.raised now).stocked.openAt i free key now := by
  have hraised : (p.raised now).slotOf key = none := h
  have hcond : (!isOpening || isEnding) ≠ true := by
    revert hopen
    cases isOpening <;> cases isEnding <;> decide
  unfold resolve
  dsimp only
  unfold raised at hraised ⊢
  rw [hraised]
  dsimp only
  rw [if_neg hcond]
  rfl

end Pool

end FlowWatch
