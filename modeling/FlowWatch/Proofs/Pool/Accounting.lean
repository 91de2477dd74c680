/-
The accounts of a pool.

What the invariant means to somebody who looks at a pool from outside: every slot is free or in use,
the free ones and the mapped ones add up to all of them, no connection is mapped twice, the listing
shows every open session once, and resolving a segment opens a session exactly when it should, and
breaks off only where it should and the session can have no queue.

The counting facts all come from one permutation: the slots named by the map, followed by the free
list, are the numbers of all slots in some order.
-/
import FlowWatch.Proofs.Tracker.Runs

set_option autoImplicit false

namespace FlowWatch

/-- What the listing shows of a slot. -/
def Slot.shown? (slot : Slot) : Option OpenSession :=
  slot.session?.map fun session => ⟨session.key, session.firstSeen, slot.lastSeen⟩

namespace Pool

/-- The slots the map names, one for each mapped connection. -/
def named (p : Pool) : List Nat := p.active.toList.map (·.2)

/-- A session of the connection is open, under the key of one of its directions. -/
def HasSession (p : Pool) (key : Flow) : Prop :=
  ∃ i slot session, p.occupant i = some (slot, session) ∧
    (session.key = key ∨ session.key = key.reverse)

/-- From `p` to `q` a session of the next generation was opened in a slot that held none. -/
def Opens (p q : Pool) (key : Flow) (now : Instant) : Prop :=
  q.generation = p.generation + 1 ∧
    ∃ i slot, p.occupant i = none ∧ q.occupant i = some (slot, .new key now) ∧
      slot.generation = p.generation + 1 ∧ q.active[key]? = some i

/-- Between `p` and `q` no slot was given or taken. -/
def Unmoved (p q : Pool) : Prop :=
  q.slots = p.slots ∧ q.free = p.free ∧ q.active = p.active ∧ q.generation = p.generation

/-- **A pool whose books are in order.** -/
structure InOrder (p : Pool) : Prop where
  /-- A slot is listed as free once and given to nobody, or it is not listed, has been given to one
  generation that no other slot has, and is named by one key. -/
  slot_standing : ∀ i slot, p.slots[i]? = some slot →
    (p.free.count i = 1 ∧ slot.owner = none ∧ ∀ key : Flow, p.active[key]? ≠ some i) ∨
      (p.free.count i = 0 ∧
        (∃ generation, slot.owner = some generation ∧
          ∀ j other, p.slots[j]? = some other → other.owner = some generation → j = i) ∧
        ∃! key : Flow, p.active[key]? = some i)
  /-- Only slots are listed. -/
  free_lt : ∀ i ∈ p.free, i < p.slots.size
  /-- The free slots and the mapped connections add up to the slots. -/
  slots_eq : p.free.length + p.active.size = p.slots.size
  /-- No two mapped connections are the same or reversals of each other. -/
  keys_apart : p.active.keys.Pairwise fun a b => a ≠ b ∧ a ≠ b.reverse
  /-- A mapped slot holds a session of that key, of the generation the slot was given to. -/
  named_open : ∀ (key : Flow) (i : Nat), p.active[key]? = some i →
    ∃ slot session, p.slots[i]? = some slot ∧ slot.phase = .open session ∧ session.key = key ∧
      slot.owner = some slot.generation
  /-- The listing shows every open session once. -/
  listing : p.openSessions.Perm (p.slots.toList.filterMap Slot.shown?)
  /-- An opening segment of a connection without a session opens one, if there can be slots and the
  call returns. -/
  opens : ∀ (key : Flow) (isOpening isEnding : Bool) (now : Instant),
    ¬ p.HasSession key → isOpening = true → isEnding = false → p.config.initialPoolCapacity ≠ 0 →
      p.Opens (p.resolve key isOpening isEnding now).1 key now
  /-- Every other segment leaves the slots as they are. -/
  opens_only : ∀ (key : Flow) (isOpening isEnding : Bool) (now : Instant),
    ¬ (¬ p.HasSession key ∧ isOpening = true ∧ isEnding = false ∧
        p.config.initialPoolCapacity ≠ 0) →
      p.Unmoved (p.resolve key isOpening isEnding now).1
  /-- The call returns, unless it comes to opening a session for which no queue can be made. -/
  breaks_off : ∀ (key : Flow) (isOpening isEnding : Bool) (now : Instant),
    p.resolve? key isOpening isEnding now = none ↔
      ¬ p.HasSession key ∧ isOpening = true ∧ isEnding = false ∧
        p.config.initialPoolCapacity ≠ 0 ∧ p.config.hasQueue = false
  /-- Both directions of a connection resolve to its session, whatever the segment is. -/
  resolves : ∀ i slot session, p.occupant i = some (slot, session) →
    ∀ (isOpening isEnding : Bool) (now : Instant),
      (p.resolve session.key isOpening isEnding now).2 = some ⟨i, slot.generation, session.key⟩ ∧
        (p.resolve session.key.reverse isOpening isEnding now).2 =
          some ⟨i, slot.generation, session.key⟩

variable {p : Pool} {i : Nat}

/-! ## The slots, counted -/

theorem mem_named : i ∈ p.named ↔ ∃ key : Flow, p.active[key]? = some i := by
  unfold named
  simp [Std.HashMap.mem_toList_iff_getElem?_eq_some]

namespace Consistent

/-- A slot is named by the key of its session, and by no other. -/
theorem named_inj (h : Consistent p) {a b : Flow} (ha : p.active[a]? = some i)
    (hb : p.active[b]? = some i) : a = b := by
  obtain ⟨slot, session, ho, hka⟩ := h.mapped a i ha
  obtain ⟨slot', session', ho', hkb⟩ := h.mapped b i hb
  obtain ⟨-, rfl⟩ := occupant_unique ho ho'
  exact hka.symm.trans hkb

theorem named_nodup (h : Consistent p) : p.named.Nodup := by
  unfold named
  refine List.pairwise_map.mpr (p.active.distinct_keys_toList.imp_of_mem ?_)
  rintro ⟨a, i⟩ ⟨b, j⟩ ha hb hab rfl
  rw [Std.HashMap.mem_toList_iff_getElem?_eq_some] at ha hb
  exact absurd (h.named_inj ha hb) (by simpa using hab)

/-- The slots the map names and the free slots are all slots, each one once. -/
theorem named_append_free_perm (h : Consistent p) :
    (p.named ++ p.free).Perm (List.range p.slots.size) := by
  have hdisjoint : ∀ i ∈ p.named, ∀ j ∈ p.free, i ≠ j := by
    rintro i hi j hj rfl
    obtain ⟨key, hk⟩ := mem_named.mp hi
    obtain ⟨slot, session, ho, -⟩ := h.mapped key i hk
    exact h.not_free ho hj
  have hnodup := List.nodup_append.mpr ⟨h.named_nodup, h.free_nodup, hdisjoint⟩
  refine (List.perm_ext_iff_of_nodup hnodup List.nodup_range).mpr fun i => ?_
  rw [List.mem_append, List.mem_range]
  constructor
  · rintro (hi | hi)
    · obtain ⟨key, hk⟩ := mem_named.mp hi
      obtain ⟨slot, session, ho, -⟩ := h.mapped key i hk
      exact lt_size ho
    · obtain ⟨slot, hs, -⟩ := h.idle i hi
      exact (Array.getElem?_eq_some_iff.mp hs).1
  · intro hi
    by_cases hfree : i ∈ p.free
    · exact Or.inr hfree
    · obtain ⟨session, -, -, hk⟩ := h.busy i _ (Array.getElem?_eq_getElem hi) hfree
      exact Or.inl (mem_named.mpr ⟨_, hk⟩)

theorem free_length_add_active_size (h : Consistent p) :
    p.free.length + p.active.size = p.slots.size := by
  have hlen := h.named_append_free_perm.length_eq
  rw [List.length_append, List.length_range] at hlen
  unfold named at hlen
  rw [List.length_map, Std.HashMap.length_toList] at hlen
  omega

end Consistent

/-- A list is what is found at its places, in order. -/
theorem filterMap_range_getElem? {α : Type} (l : List α) :
    (List.range l.length).filterMap (l[·]?) = l := by
  induction l with
  | nil => rfl
  | cons a l ih =>
    rw [List.length_cons, List.range_succ_eq_map, List.filterMap_cons, List.filterMap_map]
    exact congrArg (a :: ·) ih

namespace Consistent

/-- **The listing shows every open session once.** -/
theorem openSessions_perm (h : Consistent p) :
    p.openSessions.Perm (p.slots.toList.filterMap Slot.shown?) := by
  have hlisted : p.openSessions = p.named.filterMap fun i => p.slots[i]?.bind Slot.shown? := by
    unfold openSessions named
    rw [List.filterMap_map]
    refine List.filterMap_congr fun e _ => ?_
    rcases hs : p.slots[e.2]? with _ | slot
    · simp [hs]
    · rcases hp : slot.session? with _ | session <;> simp [hs, hp, Slot.shown?]
  have hfree : p.free.filterMap (fun i => p.slots[i]?.bind Slot.shown?) = [] := by
    refine List.filterMap_eq_nil_iff.mpr fun i hi => ?_
    obtain ⟨slot, hs, hidle⟩ := h.idle i hi
    rw [hs, Option.bind_some, Slot.shown?, hidle.session_eq]
    rfl
  have hall : p.slots.toList.filterMap Slot.shown? =
      (List.range p.slots.size).filterMap fun i => p.slots[i]?.bind Slot.shown? := by
    rw [← filterMap_range_getElem? p.slots.toList, List.filterMap_filterMap, Array.length_toList]
    simp only [Array.getElem?_toList]
  have hperm := h.named_append_free_perm.filterMap fun i => p.slots[i]?.bind Slot.shown?
  rw [List.filterMap_append, hfree, List.append_nil] at hperm
  rw [hlisted, hall]
  exact hperm

/-- A flush selects an open session by its slot. -/
theorem mem_selected (h : Consistent p) {slot : Slot} {session : Session}
    (ho : p.occupant i = some (slot, session)) (select : Slot → Bool) :
    (i, slot.generation) ∈ p.selected select ↔ select slot = true := by
  obtain ⟨hs, -⟩ := occupant_eq_some.mp ho
  obtain ⟨hb, -, hk⟩ := h.of_occupant ho
  unfold selected
  rw [List.mem_filterMap]
  constructor
  · rintro ⟨⟨key, j⟩, -, he⟩
    obtain ⟨a, ha, he⟩ := Option.bind_eq_some_iff.mp he
    obtain ⟨g, -, he⟩ := Option.bind_eq_some_iff.mp he
    split_ifs at he with hcond
    obtain ⟨rfl, -⟩ := Prod.mk.inj (Option.some.inj he)
    obtain rfl := Option.some.inj (ha.symm.trans hs)
    exact (Bool.and_eq_true_iff.mp hcond).2
  · intro hselect
    refine ⟨(session.key, i), Std.HashMap.mem_toList_iff_getElem?_eq_some.mpr hk, ?_⟩
    simp [hs, hb.owner_eq, isOpen_of_occupant ho, hselect]

/-! ## Resolving -/

theorem hasSession_iff (h : Consistent p) {key : Flow} :
    p.HasSession key ↔ p.slotOf key ≠ none := by
  rw [Option.ne_none_iff_exists']
  exact exists_congr fun i => h.slotOf_eq_some.symm

theorem resolves (h : Consistent p) {slot : Slot} {session : Session}
    (ho : p.occupant i = some (slot, session)) (isOpening isEnding : Bool) (now : Instant) :
    (p.resolve session.key isOpening isEnding now).2 = some ⟨i, slot.generation, session.key⟩ ∧
      (p.resolve session.key.reverse isOpening isEnding now).2 =
        some ⟨i, slot.generation, session.key⟩ := by
  have hkey : p.slotOf session.key = some i :=
    h.slotOf_eq_some.mpr ⟨slot, session, ho, Or.inl rfl⟩
  have hrev : p.slotOf session.key.reverse = some i :=
    h.slotOf_eq_some.mpr ⟨slot, session, ho, Or.inr rfl⟩
  rw [resolve_of_mapped hkey, resolve_of_mapped hrev]
  exact ⟨handleOf_of_occupant ho, handleOf_of_occupant ho⟩

theorem growth_ne_zero (hc : p.config.initialPoolCapacity ≠ 0) : p.growth ≠ 0 := by
  unfold growth
  split_ifs with hsize
  · exact fun h => hc (UInt64.toNat_inj.mp h)
  · simpa using hsize

/-- A pool with capacity always has a free slot to give. -/
theorem stocked_free_ne_nil (hc : p.config.initialPoolCapacity ≠ 0) : p.stocked.free ≠ [] := by
  unfold Pool.stocked
  split_ifs with hfree
  · intro hnil
    have hlen := congrArg List.length (List.append_eq_nil_iff.mp hnil).1
    rw [List.length_range'] at hlen
    exact growth_ne_zero hc hlen
  · simpa using hfree

/-- A pool without capacity has no slots, and growth gives it none. -/
theorem stocked_of_no_capacity (h : Consistent p) (hc : p.config.initialPoolCapacity = 0) :
    p.stocked.free = [] ∧ p.Unmoved p.stocked := by
  have hsize : p.slots.size = 0 := h.capacity hc
  have hfree : p.free = [] := by
    refine List.eq_nil_iff_forall_not_mem.mpr fun i hi => ?_
    obtain ⟨slot, hs, -⟩ := h.idle i hi
    have hlt := (Array.getElem?_eq_some_iff.mp hs).1
    omega
  have hgrowth : p.growth = 0 := by
    unfold growth
    rw [hsize]
    exact congrArg UInt64.toNat hc
  have hslots : p.slots ++ Array.replicate p.growth (Slot.fresh p.config.rttMaxAge) = p.slots := by
    rw [hgrowth]
    exact Array.append_empty
  have hlist : List.range' p.slots.size p.growth ++ p.free = [] := by
    rw [hgrowth, hfree]
    rfl
  have hstocked : p.stocked = p.grow := by
    unfold Pool.stocked
    rw [hfree]
    rfl
  rw [hstocked]
  exact ⟨hlist, hslots, hlist.trans hfree.symm, rfl, rfl⟩

/-- A segment that finds a session, or that opens none, leaves the slots as they are. -/
theorem resolve_unmoved (h : Consistent p) {key : Flow} {isOpening isEnding : Bool}
    (hnot : p.slotOf key = none →
      (isOpening && !isEnding && p.config.initialPoolCapacity != 0) = false) (now : Instant) :
    p.Unmoved (p.resolve key isOpening isEnding now).1 ∧
      (p.slotOf key = none → (p.resolve key isOpening isEnding now).2 = none) := by
  rcases hkey : p.slotOf key with _ | i
  · rcases hopen : isOpening && !isEnding with _ | _
    · rw [resolve_of_refused hkey hopen]
      exact ⟨⟨rfl, rfl, rfl, rfl⟩, fun _ => rfl⟩
    · have hc : p.config.initialPoolCapacity = 0 := by
        have := hnot hkey
        rw [hopen] at this
        simpa using this
      obtain ⟨hfree, hunmoved⟩ := (h.raised now).stocked_of_no_capacity hc
      rw [resolve_of_opening hkey hopen, hfree]
      exact ⟨hunmoved, fun _ => rfl⟩
  · rw [resolve_of_mapped hkey]
    exact ⟨⟨rfl, rfl, rfl, rfl⟩, fun hnone => absurd hnone (by simp)⟩

/-- A segment that opens a session: a new one on a new cache, in a slot that held none. -/
theorem resolve_opened (h : Consistent p) {key : Flow} {isOpening isEnding : Bool}
    (hkey : p.slotOf key = none)
    (hopen : (isOpening && !isEnding && p.config.initialPoolCapacity != 0) = true)
    (now : Instant) :
    ∃ i slot, (p.resolve key isOpening isEnding now).2 = some ⟨i, slot.generation, key⟩ ∧
      p.occupant i = none ∧
      (p.resolve key isOpening isEnding now).1.occupant i = some (slot, .new key now) ∧
      (p.resolve key isOpening isEnding now).1.generation = p.generation + 1 ∧
      slot.generation = p.generation + 1 ∧ slot.cache = .new p.config.rttMaxAge ∧
      slot.lastSeen = clampInt64 now := by
  obtain ⟨heligible, hc⟩ := Bool.and_eq_true_iff.mp hopen
  rw [resolve_of_opening hkey heligible]
  rcases hfree : (p.raised now).stocked.free with _ | ⟨i, free⟩
  · exact absurd hfree (stocked_free_ne_nil (p := p.raised now) (bne_iff_ne.mp hc))
  · obtain ⟨slot, hgen, hcache, hseen, hnone, hocc⟩ := h.occupant_opened hfree key
    have hstocked : (p.raised now).stocked.generation = p.generation := generation_stocked
    refine ⟨i, slot, ?_, hnone, ?_, ?_, hgen, hcache, hseen⟩
    · rw [hgen, ← hstocked]
      exact openAt_handle free key now
    · exact (hocc i).trans (if_pos rfl)
    · rw [← hstocked]
      exact (openAt_frame free key now).2.2.2.2.1

theorem opens (h : Consistent p) {key : Flow} {isOpening isEnding : Bool} {now : Instant}
    (hnone : ¬ p.HasSession key) (hopen : isOpening = true) (hend : isEnding = false)
    (hc : p.config.initialPoolCapacity ≠ 0) :
    p.Opens (p.resolve key isOpening isEnding now).1 key now := by
  have hkey : p.slotOf key = none := not_not.mp (mt h.hasSession_iff.mpr hnone)
  have heligible : (isOpening && !isEnding && p.config.initialPoolCapacity != 0) = true := by
    rw [hopen, hend]
    exact bne_iff_ne.mpr hc
  obtain ⟨i, slot, -, hfree, ho, hgen, hslot, -⟩ := h.resolve_opened hkey heligible now
  have hq : Consistent (p.resolve key isOpening isEnding now).1 :=
    h.step (.resolve key isOpening isEnding now)
  exact ⟨hgen, i, slot, hfree, ho, hslot, (hq.of_occupant ho).2.2⟩

theorem opens_only (h : Consistent p) {key : Flow} {isOpening isEnding : Bool} {now : Instant}
    (hnot : ¬ (¬ p.HasSession key ∧ isOpening = true ∧ isEnding = false ∧
      p.config.initialPoolCapacity ≠ 0)) :
    p.Unmoved (p.resolve key isOpening isEnding now).1 := by
  refine (h.resolve_unmoved (fun hkey => Bool.eq_false_iff.mpr fun heligible => hnot ?_) now).1
  have hnone : ¬ p.HasSession key := fun hs => h.hasSession_iff.mp hs hkey
  simp only [Bool.and_eq_true, Bool.not_eq_true', bne_iff_ne] at heligible
  exact ⟨hnone, heligible.1.1, heligible.1.2, heligible.2⟩

/-- A call that opens no session returns, and one that does needs a queue. -/
theorem breaks_off (h : Consistent p) {key : Flow} {isOpening isEnding : Bool} {now : Instant} :
    p.resolve? key isOpening isEnding now = none ↔
      ¬ p.HasSession key ∧ isOpening = true ∧ isEnding = false ∧
        p.config.initialPoolCapacity ≠ 0 ∧ p.config.hasQueue = false := by
  rw [resolve?_eq_none_iff]
  constructor
  · rintro ⟨hcounted, hqueue⟩
    by_contra hnot
    refine hcounted (h.opens_only ?_).2.2.2
    rintro ⟨hnone, hopen, hend, hc⟩
    exact hnot ⟨hnone, hopen, hend, hc, hqueue⟩
  · rintro ⟨hnone, hopen, hend, hc, hqueue⟩
    have hcounted : (p.resolve key isOpening isEnding now).1.generation = p.generation + 1 :=
      (h.opens hnone hopen hend hc).1
    exact ⟨by omega, hqueue⟩

/-! ## The books -/

theorem slot_standing (h : Consistent p) {slot : Slot} (hs : p.slots[i]? = some slot) :
    (p.free.count i = 1 ∧ slot.owner = none ∧ ∀ key : Flow, p.active[key]? ≠ some i) ∨
      (p.free.count i = 0 ∧
        (∃ generation, slot.owner = some generation ∧
          ∀ j other, p.slots[j]? = some other → other.owner = some generation → j = i) ∧
        ∃! key : Flow, p.active[key]? = some i) := by
  by_cases hfree : i ∈ p.free
  · refine Or.inl ⟨h.free_nodup.count.trans (if_pos hfree), ?_, ?_⟩
    · obtain ⟨a, ha, hidle⟩ := h.idle i hfree
      rw [Option.some.inj (hs.symm.trans ha)]
      exact hidle.owner_eq
    · intro key hk
      obtain ⟨a, session, ho, -⟩ := h.mapped key i hk
      exact h.not_free ho hfree
  · obtain ⟨session, hb, -, hk⟩ := h.busy i slot hs hfree
    have ho : p.occupant i = some (slot, session) := occupant_eq_some.mpr ⟨hs, hb.phase_eq⟩
    refine Or.inr ⟨List.count_eq_zero.mpr hfree, ⟨slot.generation, hb.owner_eq, ?_⟩, ?_⟩
    · intro j other hj howner
      have hjfree : j ∉ p.free := by
        intro hj'
        obtain ⟨a, ha, hidle⟩ := h.idle j hj'
        obtain rfl := Option.some.inj (hj.symm.trans ha)
        exact absurd (howner.symm.trans hidle.owner_eq) (by simp)
      obtain ⟨s, hbj, -, -⟩ := h.busy j other hj hjfree
      have hgen : other.generation = slot.generation :=
        Option.some.inj (hbj.owner_eq.symm.trans howner)
      exact h.generation_inj j i other slot s session (occupant_eq_some.mpr ⟨hj, hbj.phase_eq⟩) ho
        hgen
    · exact ⟨session.key, hk, fun key hk' => h.named_inj hk' hk⟩

theorem keys_apart (h : Consistent p) :
    p.active.keys.Pairwise fun a b => a ≠ b ∧ a ≠ b.reverse := by
  refine p.active.distinct_keys.imp_of_mem ?_
  intro a b ha hb hab
  have hne : a ≠ b := by simpa using hab
  refine ⟨hne, ?_⟩
  rintro rfl
  obtain ⟨i, hi⟩ := Option.isSome_iff_exists.mp
    (Std.HashMap.mem_iff_isSome_getElem?.mp (Std.HashMap.mem_keys.mp hb))
  obtain ⟨j, hj⟩ := Option.isSome_iff_exists.mp
    (Std.HashMap.mem_iff_isSome_getElem?.mp (Std.HashMap.mem_keys.mp ha))
  exact hne (h.alone b i j hi hj)

/-- **The invariant puts the books in order.** -/
theorem inOrder (h : Consistent p) : p.InOrder where
  slot_standing := fun _ _ hs => h.slot_standing hs
  free_lt := by
    intro i hi
    obtain ⟨slot, hs, -⟩ := h.idle i hi
    exact (Array.getElem?_eq_some_iff.mp hs).1
  slots_eq := h.free_length_add_active_size
  keys_apart := h.keys_apart
  named_open := by
    intro key i hk
    obtain ⟨slot, session, ho, he⟩ := h.mapped key i hk
    obtain ⟨hs, hp⟩ := occupant_eq_some.mp ho
    exact ⟨slot, session, hs, hp, he, (h.of_occupant ho).1.owner_eq⟩
  listing := h.openSessions_perm
  opens := fun _ _ _ _ hnone hopen hend hc => h.opens hnone hopen hend hc
  opens_only := fun _ _ _ _ hnot => h.opens_only hnot
  breaks_off := fun _ _ _ _ => h.breaks_off
  resolves := fun _ _ _ ho => h.resolves ho

end Consistent

end Pool

/-- **The books of a pool are in order after every run**, whatever the tracker was called for. -/
theorem Tracker.inOrder_run (name : String) (config : Config) (registry : Registry)
    (calls : List TrackerCall) : ((Tracker.new name config registry).run calls).pool.InOrder :=
  (consistent_run name config registry calls).inOrder

end FlowWatch
