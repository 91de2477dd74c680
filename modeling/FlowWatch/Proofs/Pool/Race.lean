/-
Racing closes.

A close is two steps: the session begins to close, and later its slot is taken back. In between, and
while either of them is late, other connections are resolved and slots are given out again. Anybody
may try to begin a close, with any slot and any generation, and whoever succeeded may release the slot
again and again.

A `Race` is a pool with the history of this: the closes that were begun and the releases that had an
effect. The invariant is about the sessions underway, those that are open and those that are closing
and not yet released. Each of them owns its slot and is mapped under its key, and whatever is mapped is
underway. Beginning a close leaves the sessions underway as they are, and a release that has an effect
takes one of them away.
-/
import FlowWatch.Proofs.Pool.Accounting

set_option autoImplicit false

namespace FlowWatch

/-- One step of a race. -/
inductive RaceStep where
  | resolve (key : Flow) (isOpening isEnding : Bool) (now : Instant)
  /-- Somebody tries to begin a close. -/
  | attempt (slot generation : Nat)
  /-- The `n`-th close that was begun is released, for the first time or once more. -/
  | release (n : Nat)

/-- A pool, the closes that were begun and the releases that had an effect, in order. -/
structure Race where
  pool : Pool
  begun : List Handle
  released : List Handle

namespace Race

/-- A race is on from any pool. -/
def start (pool : Pool) : Race := ⟨pool, [], []⟩

/-- A release. It had an effect if the free list is not what it was. -/
def releaseOf (r : Race) (h : Handle) : Race :=
  let pool := r.pool.reclaim h.slot h.key h.generation
  ⟨pool, r.begun, if pool.free = r.pool.free then r.released else r.released ++ [h]⟩

/-- The race after a step. -/
def step (r : Race) : RaceStep → Race
  | .resolve key isOpening isEnding now =>
    ⟨(r.pool.resolve key isOpening isEnding now).1, r.begun, r.released⟩
  | .attempt i generation =>
    match r.pool.startClosing i generation with
    | (pool, none) => ⟨pool, r.begun, r.released⟩
    | (pool, some session) => ⟨pool, r.begun ++ [⟨i, generation, session.key⟩], r.released⟩
  | .release n =>
    match r.begun[n]? with
    | none => r
    | some h => r.releaseOf h

/-- The race after a list of steps. -/
def run (r : Race) (ss : List RaceStep) : Race := ss.foldl step r

/-- The session of a handle is open. -/
def Open (r : Race) (h : Handle) : Prop := r.pool.handleOf h.slot = some h

/-- The session of a handle has begun to close, and its slot has not been taken back. -/
def Closing (r : Race) (h : Handle) : Prop := h ∈ r.begun ∧ h ∉ r.released

/-- The session of a handle is open or closing. -/
def Underway (r : Race) (h : Handle) : Prop := r.Open h ∨ r.Closing h

/-- **A race in order.** -/
structure InOrder (r : Race) : Prop where
  /-- The close of a generation begins once at most. -/
  begun_once : (r.begun.map (·.generation)).Nodup
  /-- One release of a generation has an effect at most. -/
  released_once : (r.released.map (·.generation)).Nodup
  /-- A release has an effect if there was none with an effect before. -/
  release_first : ∀ (n : Nat) (h : Handle), r.begun[n]? = some h → h ∉ r.released →
    (r.step (.release n)).released = r.released ++ [h]
  /-- Every later one leaves everything as it is. -/
  release_again : ∀ (n : Nat) (h : Handle), r.begun[n]? = some h → h ∈ r.released →
    r.step (.release n) = r
  /-- No connection is mapped to a free slot. -/
  named_not_free : ∀ (key : Flow) (i : Nat), r.pool.active[key]? = some i → i ∉ r.pool.free
  /-- A connection has one session underway at most. -/
  underway_once : ∀ a b : Handle, r.Underway a → r.Underway b →
    (a.key = b.key ∨ a.key = b.key.reverse) → a = b
  /-- While a session is closing its connection gets no handle, and opens nothing. -/
  closing_refuses : ∀ h : Handle, r.Closing h → ∀ key, (key = h.key ∨ key = h.key.reverse) →
    ∀ (isOpening isEnding : Bool) (now : Instant),
      (r.pool.resolve key isOpening isEnding now).2 = none ∧
        r.pool.Unmoved (r.pool.resolve key isOpening isEnding now).1

/-- **The race invariant.** -/
structure Steady (r : Race) : Prop where
  free_nodup : r.pool.free.Nodup
  idle : ∀ i ∈ r.pool.free,
    ∃ slot, r.pool.slots[i]? = some slot ∧ slot.owner = none ∧ slot.session? = none
  owned : ∀ h, r.Underway h →
    ∃ slot, r.pool.slots[h.slot]? = some slot ∧ slot.owner = some h.generation
  named : ∀ h, r.Underway h → r.pool.active[h.key]? = some h.slot
  mapped : ∀ (key : Flow) (i : Nat), r.pool.active[key]? = some i →
    ∃ h, r.Underway h ∧ h.slot = i ∧ h.key = key
  alone : ∀ (key : Flow) (i j : Nat), r.pool.active[key]? = some i →
    r.pool.active[key.reverse]? = some j → key.reverse = key
  open_le : ∀ h, r.Open h → h.generation ≤ r.pool.generation
  open_inj : ∀ a b, r.Open a → r.Open b → a.generation = b.generation → a.slot = b.slot
  begun_le : ∀ h ∈ r.begun, h.generation ≤ r.pool.generation
  begun_nodup : (r.begun.map (·.generation)).Nodup
  /-- What is open has not begun to close. -/
  apart : ∀ h ∈ r.begun, ∀ o, r.Open o → o.generation ≠ h.generation
  released_begun : ∀ h ∈ r.released, h ∈ r.begun
  released_nodup : (r.released.map (·.generation)).Nodup
  /-- A release with an effect took the slot from its generation. -/
  spent : ∀ h ∈ r.released, ∀ slot, r.pool.slots[h.slot]? = some slot →
    slot.owner ≠ some h.generation

variable {r : Race} {p : Pool} {i : Nat} {slot : Slot} {session : Session} {a b : Handle}

/-! ## Handles and owners -/

theorem open_of_occupant (ho : r.pool.occupant i = some (slot, session)) :
    r.Open ⟨i, slot.generation, session.key⟩ := Pool.handleOf_of_occupant ho

theorem open_of_handleOf (ha : r.pool.handleOf i = some a) : a.slot = i ∧ r.Open a := by
  obtain ⟨slot, session, ho, rfl⟩ := Pool.handleOf_eq_some.mp ha
  exact ⟨rfl, ha⟩

namespace Steady

/-- What is underway is in no free slot. -/
theorem not_free (h : r.Steady) (ha : r.Underway a) : a.slot ∉ r.pool.free := by
  intro hfree
  obtain ⟨slot, hs, hnone, -⟩ := h.idle _ hfree
  obtain ⟨other, ht, howner⟩ := h.owned a ha
  obtain rfl := Option.some.inj (hs.symm.trans ht)
  rw [hnone] at howner
  exact absurd howner (by simp)

theorem begun_inj (h : r.Steady) (ha : a ∈ r.begun) (hb : b ∈ r.begun)
    (hg : a.generation = b.generation) : a = b :=
  List.inj_on_of_nodup_map h.begun_nodup ha hb hg

/-- A slot has one session underway at most. -/
theorem slot_inj (h : r.Steady) (ha : r.Underway a) (hb : r.Underway b) (hslot : a.slot = b.slot) :
    a = b := by
  have hg : a.generation = b.generation := by
    obtain ⟨slot, hs, ho⟩ := h.owned a ha
    obtain ⟨other, ht, ho'⟩ := h.owned b hb
    rw [hslot] at hs
    obtain rfl := Option.some.inj (hs.symm.trans ht)
    exact Option.some.inj (ho.symm.trans ho')
  rcases ha with ha | ha <;> rcases hb with hb | hb
  · unfold Open at ha hb
    rw [hslot, hb] at ha
    exact (Option.some.inj ha).symm
  · exact absurd hg (h.apart b hb.1 a ha)
  · exact absurd hg.symm (h.apart a ha.1 b hb)
  · exact h.begun_inj ha.1 hb.1 hg

/-- A session that is closing has no handle any more. -/
theorem handleOf_of_closing (h : r.Steady) (ha : r.Closing a) : r.pool.handleOf a.slot = none := by
  refine Option.eq_none_iff_forall_ne_some.mpr fun o ho => ?_
  obtain ⟨hslot, hopen⟩ := open_of_handleOf ho
  obtain rfl := h.slot_inj (Or.inl hopen) (Or.inr ha) hslot
  exact h.apart _ ha.1 _ hopen rfl

/-- A connection with a session underway leads to its slot. -/
theorem slotOf_of_underway (h : r.Steady) (ha : r.Underway a) {key : Flow}
    (hkey : key = a.key ∨ key = a.key.reverse) : r.pool.slotOf key = some a.slot := by
  have hnamed := h.named a ha
  unfold Pool.slotOf
  rcases hkey with rfl | rfl
  · rw [hnamed]
    rfl
  · rw [a.key.reverse_reverse]
    rcases hrev : r.pool.active[a.key.reverse]? with _ | j
    · exact hnamed
    · -- Both directions are mapped, so they are one flow.
      rw [h.alone a.key a.slot j hnamed hrev, hnamed] at hrev
      exact hrev.symm

/-! ## Resolving -/

/-- A pool with the same sessions, the same map and no more than new idle slots. -/
theorem of_frame (h : r.Steady) {q : Pool} (hactive : q.active = r.pool.active)
    (hgen : q.generation = r.pool.generation) (hocc : ∀ j, q.occupant j = r.pool.occupant j)
    (hkept : ∀ (j : Nat) (slot : Slot), r.pool.slots[j]? = some slot → q.slots[j]? = some slot)
    (hnew : ∀ (j : Nat) (slot : Slot), q.slots[j]? = some slot →
      r.pool.slots[j]? = some slot ∨ slot.owner = none)
    (hfree : q.free.Nodup)
    (hidle : ∀ j ∈ q.free, ∃ slot, q.slots[j]? = some slot ∧ slot.owner = none ∧
      slot.session? = none) : Steady ⟨q, r.begun, r.released⟩ := by
  have hopen : ∀ a, Open ⟨q, r.begun, r.released⟩ a → r.Open a := fun a ha =>
    (Pool.handleOf_congr (hocc a.slot)).symm.trans ha
  have hunder : ∀ a, Underway ⟨q, r.begun, r.released⟩ a → r.Underway a := fun a ha =>
    ha.imp_left (hopen a)
  refine
    { h with
      free_nodup := hfree
      idle := hidle
      owned := fun a ha => ?owned
      named := fun a ha => ?named
      mapped := fun key j hk => ?mapped
      alone := ?alone
      open_le := ?open_le
      open_inj := fun a b ha hb => h.open_inj a b (hopen a ha) (hopen b hb)
      begun_le := ?begun_le
      apart := fun a ha o ho => h.apart a ha o (hopen o ho)
      spent := fun a ha slot hs => ?spent }
  case owned =>
    obtain ⟨slot, hs, ho⟩ := h.owned a (hunder a ha)
    exact ⟨slot, hkept _ _ hs, ho⟩
  case named =>
    rw [hactive]
    exact h.named a (hunder a ha)
  case mapped =>
    rw [hactive] at hk
    obtain ⟨a, ha, hslot, hkey⟩ := h.mapped key j hk
    exact ⟨a, ha.imp_left fun ho => (Pool.handleOf_congr (hocc a.slot)).trans ho, hslot, hkey⟩
  case alone =>
    rw [hactive]
    exact h.alone
  case open_le =>
    rw [hgen]
    exact fun a ha => h.open_le a (hopen a ha)
  case begun_le =>
    rw [hgen]
    exact h.begun_le
  case spent =>
    rcases hnew _ _ hs with hold | hnone
    · exact h.spent a ha slot hold
    · rw [hnone]
      simp

theorem unmoved (h : r.Steady) {q : Pool} (hq : r.pool.Unmoved q) :
    Steady ⟨q, r.begun, r.released⟩ := by
  obtain ⟨hslots, hfree, hactive, hgen⟩ := hq
  refine h.of_frame hactive hgen (fun j => Pool.occupant_of_slots (by rw [hslots])) ?_ ?_ ?_ ?_
  · rw [hslots]
    exact fun _ _ hs => hs
  · rw [hslots]
    exact fun _ _ hs => Or.inl hs
  · rw [hfree]
    exact h.free_nodup
  · rw [hfree, hslots]
    exact h.idle

theorem grow (h : r.Steady) : Steady ⟨r.pool.grow, r.begun, r.released⟩ := by
  have hlt : ∀ j slot, r.pool.slots[j]? = some slot → j < r.pool.slots.size :=
    fun _ _ hs => (Array.getElem?_eq_some_iff.mp hs).1
  refine h.of_frame rfl rfl Pool.occupant_grow ?_ ?_ ?_ ?_
  · intro j slot hs
    have hj := hlt j slot hs
    rw [Pool.slots_grow, if_neg (by omega)]
    exact hs
  · intro j slot hs
    rw [Pool.slots_grow] at hs
    split_ifs at hs
    · exact Or.inr (by rw [← Option.some.inj hs]; rfl)
    · exact Or.inl hs
  · refine List.nodup_append.mpr ⟨List.nodup_range', h.free_nodup, ?_⟩
    rintro j hnew k hold rfl
    obtain ⟨slot, hs, -⟩ := h.idle j hold
    have hj := hlt j slot hs
    have hge := (List.mem_range'_1.mp hnew).1
    omega
  · intro j hj
    rw [Pool.slots_grow]
    rcases List.mem_append.mp hj with hnew | hold
    · exact ⟨_, if_pos (List.mem_range'_1.mp hnew), rfl, rfl⟩
    · obtain ⟨slot, hs, hidle⟩ := h.idle j hold
      have hlt := hlt j slot hs
      exact ⟨slot, by rw [if_neg (by omega), hs], hidle⟩

theorem stocked (h : r.Steady) : Steady ⟨r.pool.stocked, r.begun, r.released⟩ := by
  unfold Pool.stocked
  split_ifs
  · exact h.grow
  · exact h

end Steady

/-! ## Opening -/

/-- The race after a session has been opened in slot `i`. -/
def openAt (r : Race) (i : Nat) (free : List Nat) (key : Flow) (now : Instant) : Race :=
  ⟨(r.pool.openAt i free key now).1, r.begun, r.released⟩

theorem open_openAt (hs : r.pool.slots[i]? = some slot) (free : List Nat) (key : Flow)
    (now : Instant) :
    (r.openAt i free key now).Open a ↔
      a = ⟨i, r.pool.generation + 1, key⟩ ∨ (r.Open a ∧ i ≠ a.slot) := by
  have hocc := Pool.occupant_openAt hs free key now a.slot
  unfold Open
  by_cases hi : i = a.slot
  · rw [if_pos hi] at hocc
    have hself : (r.openAt i free key now).pool.handleOf a.slot = _ :=
      Pool.handleOf_of_occupant hocc
    rw [hself, ← hi]
    constructor
    · exact fun ha => Or.inl (Option.some.inj ha).symm
    · rintro (rfl | ⟨-, hne⟩)
      · rfl
      · exact absurd rfl hne
  · rw [if_neg hi] at hocc
    have hother : (r.openAt i free key now).pool.handleOf a.slot = _ := Pool.handleOf_congr hocc
    rw [hother]
    constructor
    · exact fun ha => Or.inr ⟨ha, hi⟩
    · rintro (rfl | ⟨ha, -⟩)
      · exact absurd rfl hi
      · exact ha

namespace Steady

/-- One session more is underway. -/
theorem underway_openAt (h : r.Steady) (hi : i ∈ r.pool.free) (free : List Nat) (key : Flow)
    (now : Instant) :
    (r.openAt i free key now).Underway a ↔
      a = ⟨i, r.pool.generation + 1, key⟩ ∨ r.Underway a := by
  obtain ⟨slot, hs, -, -⟩ := h.idle i hi
  have hne : r.Underway a → i ≠ a.slot := by
    rintro ha rfl
    exact h.not_free ha hi
  unfold Underway
  rw [open_openAt hs, or_assoc]
  refine or_congr_right ?_
  constructor
  · rintro (⟨ha, -⟩ | ha)
    · exact Or.inl ha
    · exact Or.inr ha
  · rintro (ha | ha)
    · exact Or.inl ⟨ha, hne (Or.inl ha)⟩
    · exact Or.inr ha

/-- The new generation is above all others, and the connection was not mapped before. -/
theorem openAt (h : r.Steady) {free : List Nat} (hfree : r.pool.free = i :: free) {key : Flow}
    (hkey : r.pool.slotOf key = none) (now : Instant) : (r.openAt i free key now).Steady := by
  have hi : i ∈ r.pool.free := hfree ▸ List.mem_cons_self
  obtain ⟨slot, hs, -, -⟩ := h.idle i hi
  obtain ⟨-, -, -, hf, hg, -, -⟩ := Pool.openAt_frame (p := r.pool) (i := i) free key now
  obtain ⟨hnotin, hnodup⟩ := List.nodup_cons.mp (hfree ▸ h.free_nodup)
  obtain ⟨hnone, hrev⟩ := Pool.unmapped_of_slotOf hkey
  have hslots : ∀ j, (r.openAt i free key now).pool.slots[j]? = _ :=
    Pool.slots_openAt hs free key now
  have hactive : ∀ k, (r.openAt i free key now).pool.active[k]? = _ :=
    Pool.active_openAt (p := r.pool) (i := i) free key now
  have hopen : ∀ a, (r.openAt i free key now).Open a → _ := fun a => (open_openAt hs free key now).mp
  have hunder : ∀ a, (r.openAt i free key now).Underway a ↔ _ :=
    fun a => h.underway_openAt hi free key now
  refine
    { h with
      free_nodup := hf.symm ▸ hnodup
      idle := fun j hj => ?idle
      owned := fun a ha => ?owned
      named := fun a ha => ?named
      mapped := fun k j hk => ?mapped
      alone := fun k j l hj hl => ?alone
      open_le := fun a ha => ?open_le
      open_inj := fun a b ha hb hgen => ?open_inj
      begun_le := fun a ha => (Nat.le_succ_of_le (h.begun_le a ha)).trans_eq hg.symm
      apart := fun a ha o ho => ?apart
      spent := fun a ha b hb howner => ?spent }
  case idle =>
    have hmem : j ∈ free := hf ▸ hj
    rw [hslots, if_neg]
    · exact h.idle j (hfree ▸ List.mem_cons_of_mem i hmem)
    · rintro rfl
      exact hnotin hmem
  case owned =>
    rw [hslots]
    rcases (hunder a).mp ha with rfl | hold
    · exact ⟨_, if_pos rfl, rfl⟩
    · rw [if_neg]
      · exact h.owned a hold
      · rintro rfl
        exact h.not_free hold hi
  case named =>
    rw [hactive]
    rcases (hunder a).mp ha with rfl | hold
    · exact if_pos rfl
    · have hnamed := h.named a hold
      rw [if_neg, hnamed]
      rintro rfl
      rw [hnone] at hnamed
      exact absurd hnamed (by simp)
  case mapped =>
    rw [hactive] at hk
    split_ifs at hk with heq
    · exact ⟨_, (hunder _).mpr (Or.inl rfl), Option.some.inj hk, heq⟩
    · obtain ⟨a, ha, hslot, hka⟩ := h.mapped k j hk
      exact ⟨a, (hunder a).mpr (Or.inr ha), hslot, hka⟩
  case alone =>
    -- The new connection was mapped in neither direction.
    rw [hactive] at hj hl
    split_ifs at hj hl with hkj hkl hkl
    · exact hkl.symm.trans hkj
    · rw [← hkj, hrev] at hl
      exact absurd hl (by simp)
    · rw [hkl, k.reverse_reverse, hj] at hrev
      exact absurd hrev (by simp)
    · exact h.alone k j l hj hl
  case open_le =>
    have hle : a.generation ≤ r.pool.generation + 1 := by
      rcases hopen a ha with rfl | ⟨hold, -⟩
      · exact Nat.le_refl _
      · exact Nat.le_succ_of_le (h.open_le a hold)
    exact hle.trans_eq hg.symm
  case open_inj =>
    rcases hopen a ha with rfl | ⟨hoa, -⟩ <;> rcases hopen b hb with rfl | ⟨hob, -⟩
    · rfl
    · have hle := h.open_le b hob
      dsimp only at hgen
      omega
    · have hle := h.open_le a hoa
      dsimp only at hgen
      omega
    · exact h.open_inj a b hoa hob hgen
  case apart =>
    rcases hopen o ho with rfl | ⟨hold, -⟩
    · exact Nat.ne_of_gt (Nat.lt_succ_of_le (h.begun_le a ha))
    · exact h.apart a ha o hold
  case spent =>
    -- The slot has a new owner, and what was released is older.
    rw [hslots] at hb
    split_ifs at hb
    · rw [← Option.some.inj hb] at howner
      have hgen : r.pool.generation + 1 = a.generation := Option.some.inj howner
      have hle := h.begun_le a (h.released_begun a ha)
      omega
    · exact h.spent a ha b hb howner

/-- Any segment. -/
theorem resolve (h : r.Steady) (key : Flow) (isOpening isEnding : Bool) (now : Instant) :
    Steady ⟨(r.pool.resolve key isOpening isEnding now).1, r.begun, r.released⟩ := by
  have hraised : Steady ⟨r.pool.raised now, r.begun, r.released⟩ := h.unmoved ⟨rfl, rfl, rfl, rfl⟩
  rcases hk : r.pool.slotOf key with _ | i
  · rcases hopen : isOpening && !isEnding with _ | _
    · rw [Pool.resolve_of_refused hk hopen]
      exact hraised
    · rw [Pool.resolve_of_opening hk hopen]
      rcases hfree : (r.pool.raised now).stocked.free with _ | ⟨i, free⟩
      · exact hraised.stocked
      · exact hraised.stocked.openAt hfree (Pool.slotOf_stocked.trans hk) now
  · rw [Pool.resolve_of_mapped hk]
    exact hraised

end Steady

/-! ## Beginning to close -/

/-- The race after the session in slot `i` has begun to close. -/
def beginAt (r : Race) (i : Nat) (slot : Slot) (session : Session) : Race :=
  ⟨r.pool.setSlot i { slot with phase := .closed },
    r.begun ++ [⟨i, slot.generation, session.key⟩], r.released⟩

theorem slots_beginAt (ho : r.pool.occupant i = some (slot, session)) (j : Nat) :
    (r.beginAt i slot session).pool.slots[j]? =
      if i = j then some { slot with phase := .closed } else r.pool.slots[j]? :=
  Pool.getElem?_slots_set (Pool.lt_size ho) _ j

theorem open_beginAt (ho : r.pool.occupant i = some (slot, session)) :
    (r.beginAt i slot session).Open a ↔ r.Open a ∧ i ≠ a.slot := by
  have hslots := slots_beginAt ho a.slot
  unfold Open
  by_cases hi : i = a.slot
  · rw [if_pos hi] at hslots
    refine iff_of_false (fun ha => ?_) fun hboth => hboth.2 hi
    obtain ⟨b, t, hb, -⟩ := Pool.handleOf_eq_some.mp ha
    obtain ⟨hb, hp⟩ := Pool.occupant_eq_some.mp hb
    rw [← Option.some.inj (hslots.symm.trans hb)] at hp
    exact absurd hp (by simp)
  · rw [if_neg hi] at hslots
    rw [Pool.handleOf_congr (Pool.occupant_of_slots hslots)]
    exact (and_iff_left hi).symm

/-- What has begun to close is closing, because the close of its generation has not begun before. -/
theorem Steady.closing_beginAt (h : r.Steady) (ho : r.pool.occupant i = some (slot, session)) :
    (r.beginAt i slot session).Closing a ↔
      r.Closing a ∨ a = ⟨i, slot.generation, session.key⟩ := by
  have hfresh : ⟨i, slot.generation, session.key⟩ ∉ r.begun := fun hb =>
    h.apart _ hb _ (open_of_occupant ho) rfl
  unfold Closing beginAt
  dsimp only
  rw [List.mem_append, List.mem_singleton]
  constructor
  · rintro ⟨hold | hnew, hnot⟩
    · exact Or.inl ⟨hold, hnot⟩
    · exact Or.inr hnew
  · rintro (⟨hold, hnot⟩ | rfl)
    · exact ⟨Or.inl hold, hnot⟩
    · exact ⟨Or.inr rfl, fun hr => hfresh (h.released_begun _ hr)⟩

/-- The same is underway as before. -/
theorem Steady.underway_beginAt (h : r.Steady) (ho : r.pool.occupant i = some (slot, session)) :
    (r.beginAt i slot session).Underway a ↔ r.Underway a := by
  unfold Underway
  rw [open_beginAt ho, h.closing_beginAt ho]
  constructor
  · rintro (⟨hopen, -⟩ | hclosing | rfl)
    · exact Or.inl hopen
    · exact Or.inr hclosing
    · exact Or.inl (open_of_occupant ho)
  · rintro (hopen | hclosing)
    · by_cases hi : i = a.slot
      · refine Or.inr (Or.inr (h.slot_inj (Or.inl hopen) (Or.inl (open_of_occupant ho)) hi.symm))
      · exact Or.inl ⟨hopen, hi⟩
    · exact Or.inr (Or.inl hclosing)

theorem Steady.beginAt (h : r.Steady) (ho : r.pool.occupant i = some (slot, session)) :
    (r.beginAt i slot session).Steady := by
  have hmine := open_of_occupant ho
  have hslots := slots_beginAt ho
  have hs : r.pool.slots[i]? = some slot := (Pool.occupant_eq_some.mp ho).1
  -- The owner of a slot does not change.
  have howner : ∀ (j : Nat) (b : Slot), (r.beginAt i slot session).pool.slots[j]? = some b →
      ∃ c, r.pool.slots[j]? = some c ∧ c.owner = b.owner := by
    intro j b hb
    rw [hslots] at hb
    split_ifs at hb with hij
    · exact ⟨slot, hij ▸ hs, by rw [← Option.some.inj hb]⟩
    · exact ⟨b, hb, rfl⟩
  refine
    { h with
      idle := fun j hj => ?idle
      owned := fun a ha => ?owned
      named := fun a ha => h.named a ((h.underway_beginAt ho).mp ha)
      mapped := fun key j hk => ?mapped
      open_le := fun a ha => h.open_le a ((open_beginAt ho).mp ha).1
      open_inj := fun a b ha hb =>
        h.open_inj a b ((open_beginAt ho).mp ha).1 ((open_beginAt ho).mp hb).1
      begun_le := fun a ha => ?begun_le
      begun_nodup := ?begun_nodup
      apart := fun a ha o hopen => ?apart
      released_begun := fun a ha => List.mem_append_left _ (h.released_begun a ha)
      spent := fun a ha b hb => ?spent }
  case idle =>
    rw [hslots, if_neg]
    · exact h.idle j hj
    · rintro rfl
      exact h.not_free (Or.inl hmine) hj
  case owned =>
    obtain ⟨b, hb, hgen⟩ := h.owned a ((h.underway_beginAt ho).mp ha)
    rw [hslots]
    by_cases hi : i = a.slot
    · rw [← hi, hs] at hb
      obtain rfl := Option.some.inj hb
      exact ⟨_, if_pos hi, hgen⟩
    · exact ⟨b, (if_neg hi).trans hb, hgen⟩
  case mapped =>
    obtain ⟨a, ha, hslot, hkey⟩ := h.mapped key j hk
    exact ⟨a, (h.underway_beginAt ho).mpr ha, hslot, hkey⟩
  case begun_le =>
    rcases List.mem_append.mp ha with hold | hnew
    · exact h.begun_le a hold
    · rw [List.mem_singleton.mp hnew]
      exact h.open_le _ hmine
  case begun_nodup =>
    unfold Race.beginAt
    rw [List.map_append]
    refine List.nodup_append.mpr ⟨h.begun_nodup, List.nodup_singleton _, ?_⟩
    rintro generation hold g hnew rfl
    obtain ⟨a, ha, rfl⟩ := List.mem_map.mp hold
    exact h.apart a ha _ hmine (List.mem_singleton.mp hnew).symm
  case apart =>
    obtain ⟨hold, hne⟩ := (open_beginAt ho).mp hopen
    rcases List.mem_append.mp ha with hbegun | hnew
    · exact h.apart a hbegun o hold
    · rw [List.mem_singleton.mp hnew]
      exact fun hgen => hne (h.open_inj o _ hold hmine hgen).symm
  case spent =>
    obtain ⟨c, hc, hsame⟩ := howner _ b hb
    rw [← hsame]
    exact h.spent a ha c hc

/-! ## Releasing -/

/-- The race after the slot of a session has been taken back. -/
def takeBack (r : Race) (a : Handle) (slot : Slot) : Race where
  pool :=
    { r.pool with
      active := Pool.unmap (Pool.unmap r.pool.active a.slot a.key) a.slot a.key.reverse
      slots := r.pool.slots.setIfInBounds a.slot { slot with owner := none }
      free := a.slot :: r.pool.free }
  begun := r.begun
  released := r.released ++ [a]

theorem releaseOf_of_owned (hs : r.pool.slots[a.slot]? = some slot)
    (ho : slot.owner = some a.generation) : r.releaseOf a = r.takeBack a slot := by
  unfold releaseOf
  rw [Pool.reclaim_of_owned hs ho]
  dsimp only
  rw [if_neg (List.cons_ne_self _ _)]
  rfl

theorem releaseOf_of_other
    (h : ∀ slot, r.pool.slots[a.slot]? = some slot → slot.owner ≠ some a.generation) :
    r.releaseOf a = r := by
  unfold releaseOf
  rw [Pool.reclaim_of_other h]
  dsimp only
  rw [if_pos rfl]

theorem slots_takeBack (hs : r.pool.slots[a.slot]? = some slot) (j : Nat) :
    (r.takeBack a slot).pool.slots[j]? =
      if a.slot = j then some { slot with owner := none } else r.pool.slots[j]? :=
  Pool.getElem?_slots_set (Array.getElem?_eq_some_iff.mp hs).1 _ j

theorem open_takeBack (hs : r.pool.slots[a.slot]? = some slot) :
    (r.takeBack a slot).Open b ↔ r.Open b := by
  have hslots := slots_takeBack hs b.slot
  unfold Open Pool.handleOf
  rw [hslots]
  split_ifs with hab
  · rw [← hab, hs]
    rfl
  · rfl

namespace Steady

/-- One session less is underway. -/
theorem underway_takeBack (h : r.Steady) (ha : r.Closing a)
    (hs : r.pool.slots[a.slot]? = some slot) :
    (r.takeBack a slot).Underway b ↔ r.Underway b ∧ b ≠ a := by
  have hopen : r.Open b → b ≠ a := by
    rintro hb rfl
    exact h.apart _ ha.1 _ hb rfl
  unfold Underway
  rw [open_takeBack hs]
  unfold Closing takeBack
  dsimp only
  rw [List.mem_append, List.mem_singleton]
  constructor
  · rintro (hb | ⟨hb, hnot⟩)
    · exact ⟨Or.inl hb, hopen hb⟩
    · exact ⟨Or.inr ⟨hb, fun hr => hnot (Or.inl hr)⟩, fun heq => hnot (Or.inr heq)⟩
  · rintro ⟨hb | ⟨hb, hnot⟩, hne⟩
    · exact Or.inl hb
    · exact Or.inr ⟨hb, fun hr => hr.elim hnot hne⟩

theorem active_takeBack (h : r.Steady) (ha : r.Closing a) (slot : Slot) (k : Flow) :
    (r.takeBack a slot).pool.active[k]? = if a.key = k then none else r.pool.active[k]? := by
  have hnamed := h.named a (Or.inr ha)
  exact Pool.getElem?_unmap_both hnamed (h.alone a.key a.slot a.slot hnamed) k

theorem takeBack (h : r.Steady) (ha : r.Closing a) (hs : r.pool.slots[a.slot]? = some slot) :
    (r.takeBack a slot).Steady := by
  have hslots := slots_takeBack hs
  have hactive := h.active_takeBack ha slot
  have hunder : ∀ b, (r.takeBack a slot).Underway b ↔ r.Underway b ∧ b ≠ a :=
    fun b => h.underway_takeBack ha hs
  have hopen : ∀ b, (r.takeBack a slot).Open b ↔ r.Open b := fun b => open_takeBack hs
  refine
    { h with
      free_nodup := List.nodup_cons.mpr ⟨h.not_free (Or.inr ha), h.free_nodup⟩
      idle := fun j hj => ?idle
      owned := fun b hb => ?owned
      named := fun b hb => ?named
      mapped := fun key j hk => ?mapped
      alone := fun key j l hj hl => ?alone
      open_le := fun b hb => h.open_le b ((hopen b).mp hb)
      open_inj := fun b c hb hc => h.open_inj b c ((hopen b).mp hb) ((hopen c).mp hc)
      apart := fun b hb o ho => h.apart b hb o ((hopen o).mp ho)
      released_begun := fun b hb => ?released_begun
      released_nodup := ?released_nodup
      spent := fun b hb c hc => ?spent }
  case idle =>
    rw [hslots]
    by_cases hij : a.slot = j
    · -- The session went when its close began, so the slot is idle.
      refine ⟨_, if_pos hij, rfl, ?_⟩
      have hnone := h.handleOf_of_closing ha
      unfold Pool.handleOf at hnone
      rw [hs] at hnone
      rcases hsession : slot.session? with _ | session
      · exact hsession
      · simp [hsession] at hnone
    · rw [if_neg hij]
      exact h.idle j ((List.mem_cons.mp hj).resolve_left (Ne.symm hij))
  case owned =>
    obtain ⟨hb, hne⟩ := (hunder b).mp hb
    rw [hslots, if_neg fun heq => hne (h.slot_inj hb (Or.inr ha) heq.symm)]
    exact h.owned b hb
  case named =>
    obtain ⟨hb, hne⟩ := (hunder b).mp hb
    have hnamed := h.named b hb
    rw [hactive, if_neg, hnamed]
    intro heq
    have hslot := h.named a (Or.inr ha)
    rw [heq, hnamed] at hslot
    exact hne (h.slot_inj hb (Or.inr ha) (Option.some.inj hslot))
  case mapped =>
    rw [hactive] at hk
    split_ifs at hk with heq
    obtain ⟨b, hb, hslot, hkey⟩ := h.mapped key j hk
    refine ⟨b, (hunder b).mpr ⟨hb, ?_⟩, hslot, hkey⟩
    rintro rfl
    exact heq hkey
  case alone =>
    rw [hactive] at hj hl
    split_ifs at hj hl
    exact h.alone key j l hj hl
  case released_begun =>
    rcases List.mem_append.mp hb with hold | hnew
    · exact h.released_begun b hold
    · rw [List.mem_singleton.mp hnew]
      exact ha.1
  case released_nodup =>
    unfold Race.takeBack
    rw [List.map_append]
    refine List.nodup_append.mpr ⟨h.released_nodup, List.nodup_singleton _, ?_⟩
    rintro generation hold g hnew rfl
    obtain ⟨b, hb, hgen⟩ := List.mem_map.mp hold
    have hsame := h.begun_inj (h.released_begun b hb) ha.1
      (hgen.trans (List.mem_singleton.mp hnew))
    exact ha.2 (hsame ▸ hb)
  case spent =>
    rw [hslots] at hc
    split_ifs at hc with heq
    · rw [← Option.some.inj hc]
      simp
    · rcases List.mem_append.mp hb with hold | hnew
      · exact h.spent b hold c hc
      · exact absurd (congrArg Handle.slot (List.mem_singleton.mp hnew)).symm heq

/-- The first release takes the slot back. -/
theorem releaseOf_first (h : r.Steady) (ha : r.Closing a) :
    ∃ slot, r.pool.slots[a.slot]? = some slot ∧ r.releaseOf a = r.takeBack a slot := by
  obtain ⟨slot, hs, howner⟩ := h.owned a (Or.inr ha)
  exact ⟨slot, hs, releaseOf_of_owned hs howner⟩

/-- No other does anything. -/
theorem releaseOf_again (h : r.Steady) (ha : a ∈ r.released) : r.releaseOf a = r :=
  releaseOf_of_other (h.spent a ha)

/-! ## Steps and runs -/

theorem step (h : r.Steady) (s : RaceStep) : (r.step s).Steady := by
  cases s with
  | resolve key isOpening isEnding now => exact h.resolve key isOpening isEnding now
  | attempt i generation =>
    unfold Race.step
    dsimp only
    by_cases hg : ∃ slot session, r.pool.occupant i = some (slot, session) ∧
        slot.generation = generation
    · obtain ⟨slot, session, ho, rfl⟩ := hg
      rw [Pool.startClosing_of_occupant ho]
      exact h.beginAt ho
    · rw [Pool.startClosing_of_other fun slot session ho he => hg ⟨slot, session, ho, he⟩]
      exact h
  | release n =>
    unfold Race.step
    dsimp only
    rcases hn : r.begun[n]? with _ | a
    · exact h
    · dsimp only
      by_cases ha : a ∈ r.released
      · rw [h.releaseOf_again ha]
        exact h
      · have hclosing : r.Closing a := ⟨List.mem_of_getElem? hn, ha⟩
        obtain ⟨slot, hs, hfirst⟩ := h.releaseOf_first hclosing
        rw [hfirst]
        exact h.takeBack hclosing hs

/-- **Every race keeps the invariant.** -/
theorem run (h : r.Steady) (ss : List RaceStep) : (r.run ss).Steady := by
  induction ss generalizing r with
  | nil => exact h
  | cons s ss ih => exact ih (h.step s)

/-- The invariant of pools is that of a race before its first step. -/
theorem start (h : p.Consistent) : (Race.start p).Steady := by
  have hunder : ∀ a, (Race.start p).Underway a →
      ∃ slot session, p.occupant a.slot = some (slot, session) ∧
        a = ⟨a.slot, slot.generation, session.key⟩ := by
    rintro a (ha | ⟨ha, -⟩)
    · exact Pool.handleOf_eq_some.mp ha
    · exact absurd ha List.not_mem_nil
  refine
    { free_nodup := h.free_nodup
      idle := fun j hj => ?idle
      owned := fun a ha => ?owned
      named := fun a ha => ?named
      mapped := fun key j hk => ?mapped
      alone := h.alone
      open_le := fun a ha => ?open_le
      open_inj := fun a b ha hb hgen => ?open_inj
      begun_le := fun a ha => absurd ha List.not_mem_nil
      begun_nodup := List.nodup_nil
      apart := fun a ha => absurd ha List.not_mem_nil
      released_begun := fun a ha => absurd ha List.not_mem_nil
      released_nodup := List.nodup_nil
      spent := fun a ha => absurd ha List.not_mem_nil }
  case idle =>
    obtain ⟨slot, hs, hidle⟩ := h.idle j hj
    exact ⟨slot, hs, hidle.owner_eq, hidle.session_eq⟩
  case owned =>
    obtain ⟨slot, session, ho, he⟩ := hunder a ha
    refine ⟨slot, (Pool.occupant_eq_some.mp ho).1, ?_⟩
    rw [(h.of_occupant ho).1.owner_eq, he]
  case named =>
    obtain ⟨slot, session, ho, he⟩ := hunder a ha
    rw [he]
    exact (h.of_occupant ho).2.2
  case mapped =>
    obtain ⟨slot, session, ho, rfl⟩ := h.mapped key j hk
    exact ⟨_, Or.inl (open_of_occupant ho), rfl, rfl⟩
  case open_le =>
    obtain ⟨slot, session, ho, he⟩ := hunder a (Or.inl ha)
    rw [he]
    exact (h.of_occupant ho).2.1
  case open_inj =>
    obtain ⟨slot, session, ho, he⟩ := hunder a (Or.inl ha)
    obtain ⟨slot', session', ho', he'⟩ := hunder b (Or.inl hb)
    rw [he, he'] at hgen
    exact h.generation_inj _ _ _ _ _ _ ho ho' hgen

/-- **The invariant puts the race in order.** -/
theorem inOrder (h : r.Steady) : r.InOrder where
  begun_once := h.begun_nodup
  released_once := h.released_nodup
  release_first := by
    intro n a hn ha
    obtain ⟨slot, -, hfirst⟩ := h.releaseOf_first ⟨List.mem_of_getElem? hn, ha⟩
    unfold Race.step
    dsimp only
    rw [hn]
    dsimp only
    rw [hfirst]
    rfl
  release_again := by
    intro n a hn ha
    unfold Race.step
    dsimp only
    rw [hn]
    exact h.releaseOf_again ha
  named_not_free := by
    intro key i hk
    obtain ⟨a, ha, rfl, -⟩ := h.mapped key i hk
    exact h.not_free ha
  underway_once := by
    intro a b ha hb hkey
    have hslot := h.slotOf_of_underway hb hkey
    rw [h.slotOf_of_underway ha (Or.inl rfl)] at hslot
    exact h.slot_inj ha hb (Option.some.inj hslot)
  closing_refuses := by
    intro a ha key hkey isOpening isEnding now
    rw [Pool.resolve_of_mapped (h.slotOf_of_underway (Or.inr ha) hkey)]
    exact ⟨h.handleOf_of_closing ha, rfl, rfl, rfl, rfl⟩

end Steady

end Race

/-- **Racing closes close once.** From the pool of a tracker after any run, whatever is tried and
however often: closes that are begun, or not, for any slot and generation, releases of the closes that
were begun, late or again, and segments of any connections between them. -/
theorem Race.closes_once (name : String) (config : Config) (registry : Registry)
    (calls : List TrackerCall) (ss : List RaceStep) :
    ((Race.start ((Tracker.new name config registry).run calls).pool).run ss).InOrder :=
  ((Steady.start (Tracker.consistent_run name config registry calls)).run ss).inOrder

end FlowWatch
