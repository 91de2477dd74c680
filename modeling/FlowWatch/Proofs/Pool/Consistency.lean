/-
The invariant of a pool.

Four things must agree: the map from connections to slots, the owner each slot records, the list of
free slots, and what is in a slot. A slot is idle and listed, or it is busy and mapped, and a busy
slot is mapped under the key of its session and under no other. The map is looked up in both
directions, so a connection must not be in it twice.

Every step is made of five parts, and each part keeps the invariant; a run is then an induction on
its steps. The cache of an idle slot is part of the invariant because it is what the next session
finds there.
-/
import FlowWatch.Proofs.Pool.Steps
import Mathlib.Data.List.Nodup

set_option autoImplicit false

namespace FlowWatch

/-- A slot nobody uses. Its cache will open as a new one. -/
structure Slot.Idle (config : Config) (slot : Slot) : Prop where
  owner_eq : slot.owner = none
  session_eq : slot.session? = none
  cache_eq : slot.cache.reopen = .new config.rttMaxAge

/-- A slot that holds a session and has been given to the session's generation. -/
structure Slot.Busy (config : Config) (slot : Slot) (session : Session) : Prop where
  phase_eq : slot.phase = .open session
  owner_eq : slot.owner = some slot.generation
  maxAge_eq : slot.cache.maxAge = config.rttMaxAge

namespace Pool

/-- **The pool invariant.** -/
structure Consistent (p : Pool) : Prop where
  free_nodup : p.free.Nodup
  idle : ∀ i ∈ p.free, ∃ slot, p.slots[i]? = some slot ∧ slot.Idle p.config
  busy : ∀ (i : Nat) (slot : Slot), p.slots[i]? = some slot → i ∉ p.free →
    ∃ session, slot.Busy p.config session ∧ slot.generation ≤ p.generation ∧
      p.active[session.key]? = some i
  mapped : ∀ (key : Flow) (i : Nat), p.active[key]? = some i →
    ∃ slot session, p.occupant i = some (slot, session) ∧ session.key = key
  alone : ∀ (key : Flow) (i j : Nat), p.active[key]? = some i → p.active[key.reverse]? = some j →
    key.reverse = key
  generation_inj : ∀ (i j : Nat) (a b : Slot) (s t : Session),
    p.occupant i = some (a, s) → p.occupant j = some (b, t) →
      a.generation = b.generation → i = j
  capacity : p.config.initialPoolCapacity = 0 → p.slots.size = 0

variable {p : Pool} {i : Nat} {slot : Slot} {session : Session}

theorem Consistent.new (config : Config) (registry : Registry) :
    Consistent (.new config registry) where
  free_nodup := List.nodup_nil
  idle := fun i hi => absurd hi List.not_mem_nil
  busy := fun i slot hs => absurd hs (by simp [Pool.new])
  mapped := fun key i h => absurd h (by simp [Pool.new])
  alone := fun key i j h => absurd h (by simp [Pool.new])
  generation_inj := fun i j a b s t h => absurd (occupant_eq_some.mp h).1 (by simp [Pool.new])
  capacity := fun _ => rfl

namespace Consistent

/-! ## What the invariant says about one slot -/

theorem occupant_of_free (h : Consistent p) (hi : i ∈ p.free) : p.occupant i = none := by
  obtain ⟨slot, hs, hidle⟩ := h.idle i hi
  refine occupant_eq_none.mpr fun a ha => ?_
  obtain rfl : slot = a := Option.some.inj (hs.symm.trans ha)
  exact hidle.session_eq

theorem not_free (h : Consistent p) (ho : p.occupant i = some (slot, session)) : i ∉ p.free := by
  intro hi
  rw [h.occupant_of_free hi] at ho
  exact absurd ho (by simp)

/-- Everything about a slot with an open session. -/
theorem of_occupant (h : Consistent p) (ho : p.occupant i = some (slot, session)) :
    slot.Busy p.config session ∧ slot.generation ≤ p.generation ∧
      p.active[session.key]? = some i := by
  obtain ⟨hs, hp⟩ := occupant_eq_some.mp ho
  obtain ⟨s, hb, hg, hk⟩ := h.busy i slot hs (h.not_free ho)
  obtain rfl : session = s := Phase.open.inj (hp.symm.trans hb.phase_eq)
  exact ⟨hb, hg, hk⟩

/-- A connection has a slot if and only if the slot's session has its key, in one direction or the
other. -/
theorem slotOf_eq_some (h : Consistent p) {key : Flow} :
    p.slotOf key = some i ↔
      ∃ slot session, p.occupant i = some (slot, session) ∧
        (session.key = key ∨ session.key = key.reverse) := by
  unfold slotOf
  constructor
  · intro hk
    rcases hkey : p.active[key]? with _ | j
    · rw [hkey] at hk
      have hrev : p.active[key.reverse]? = some i := hk
      obtain ⟨slot, session, ho, he⟩ := h.mapped _ _ hrev
      exact ⟨slot, session, ho, Or.inr he⟩
    · rw [hkey] at hk
      obtain rfl : j = i := Option.some.inj hk
      obtain ⟨slot, session, ho, he⟩ := h.mapped _ _ hkey
      exact ⟨slot, session, ho, Or.inl he⟩
  · rintro ⟨slot, session, ho, rfl | he⟩
    · rw [(h.of_occupant ho).2.2]
      rfl
    · have hrev := (h.of_occupant ho).2.2
      rw [he] at hrev
      rcases hkey : p.active[key]? with _ | j
      · exact hrev
      · -- Both directions are mapped, so they are one flow.
        have heq := h.alone key j i hkey hrev
        rw [heq, hkey] at hrev
        exact hrev

theorem slotOf_eq_none (h : Consistent p) {key : Flow} (hk : p.slotOf key = none)
    (ho : p.occupant i = some (slot, session)) :
    session.key ≠ key ∧ session.key ≠ key.reverse := by
  constructor
  · intro he
    have := h.slotOf_eq_some.mpr ⟨slot, session, ho, Or.inl he⟩
    rw [hk] at this
    exact absurd this (by simp)
  · intro he
    have := h.slotOf_eq_some.mpr ⟨slot, session, ho, Or.inr he⟩
    rw [hk] at this
    exact absurd this (by simp)

/-! ## The parts of a step keep it -/

theorem raised (h : Consistent p) (now : Instant) : Consistent (p.raised now) :=
  ⟨h.free_nodup, h.idle, h.busy, h.mapped, h.alone, h.generation_inj, h.capacity⟩

theorem idle_fresh (config : Config) : (Slot.fresh config.rttMaxAge).Idle config := ⟨rfl, rfl, rfl⟩

theorem grow (h : Consistent p) : Consistent p.grow where
  free_nodup := by
    refine List.nodup_append.mpr ⟨List.nodup_range', h.free_nodup, ?_⟩
    rintro i hnew j hold rfl
    obtain ⟨slot, hs, -⟩ := h.idle i hold
    have hlt := (Array.getElem?_eq_some_iff.mp hs).1
    have hge := (List.mem_range'_1.mp hnew).1
    omega
  idle := by
    intro i hi
    rw [slots_grow]
    rcases List.mem_append.mp hi with hnew | hold
    · exact ⟨_, if_pos (List.mem_range'_1.mp hnew), idle_fresh p.config⟩
    · obtain ⟨slot, hs, hidle⟩ := h.idle i hold
      have hlt := (Array.getElem?_eq_some_iff.mp hs).1
      exact ⟨slot, by rw [if_neg (by omega), hs], hidle⟩
  busy := by
    intro i slot hs hi
    obtain ⟨hnew, hold⟩ := not_or.mp (mt List.mem_append.mpr hi)
    rw [slots_grow, if_neg (mt List.mem_range'_1.mpr hnew)] at hs
    exact h.busy i slot hs hold
  mapped := by
    intro key i hk
    rw [occupant_grow]
    exact h.mapped key i hk
  alone := h.alone
  generation_inj := by
    intro i j a b s t ha hb
    rw [occupant_grow] at ha hb
    exact h.generation_inj i j a b s t ha hb
  capacity := by
    intro hc
    have hsize : p.slots.size = 0 := h.capacity hc
    have hgrowth : p.growth = 0 := by
      unfold growth
      rw [hsize]
      exact congrArg UInt64.toNat hc
    unfold Pool.grow note
    dsimp only
    rw [Array.size_append, Array.size_replicate, hsize, hgrowth]

theorem stocked (h : Consistent p) : Consistent p.stocked := by
  unfold Pool.stocked
  split_ifs
  · exact h.grow
  · exact h

/-- The new key is in the map in one direction only, because it was there in neither. -/
theorem alone_openAt (h : Consistent p) {key : Flow} (hkey : p.slotOf key = none)
    (free : List Nat) (now : Instant) (k : Flow) (j l : Nat)
    (hj : (p.openAt i free key now).1.active[k]? = some j)
    (hl : (p.openAt i free key now).1.active[k.reverse]? = some l) : k.reverse = k := by
  rw [active_openAt] at hj hl
  split_ifs at hj hl with hkj hkl hkl
  · exact hkl.symm.trans hkj
  · obtain ⟨a, s, ho, he⟩ := h.mapped _ _ hl
    exact absurd (hkj ▸ he) (h.slotOf_eq_none hkey ho).2
  · obtain ⟨a, s, ho, he⟩ := h.mapped _ _ hj
    exact absurd (hkl ▸ he) (h.slotOf_eq_none hkey ho).2
  · exact h.alone k j l hj hl

/-- The new generation is above all others. -/
theorem generation_inj_openAt (h : Consistent p) (hs : p.slots[i]? = some slot) (free : List Nat)
    (key : Flow) (now : Instant) (j l : Nat) (a b : Slot) (s t : Session)
    (hj : (p.openAt i free key now).1.occupant j = some (a, s))
    (hl : (p.openAt i free key now).1.occupant l = some (b, t))
    (hgen : a.generation = b.generation) : j = l := by
  rw [occupant_openAt hs] at hj hl
  split_ifs at hj hl with hij hil hil
  · exact hij.symm.trans hil
  · have hle := (h.of_occupant hl).2.1
    rw [← (Prod.mk.inj (Option.some.inj hj)).1] at hgen
    exact absurd hgen (Nat.ne_of_gt (Nat.lt_succ_of_le hle))
  · have hle := (h.of_occupant hj).2.1
    rw [← (Prod.mk.inj (Option.some.inj hl)).1] at hgen
    exact absurd hgen (Nat.ne_of_lt (Nat.lt_succ_of_le hle))
  · exact h.generation_inj j l a b s t hj hl hgen

theorem openAt (h : Consistent p) {free : List Nat} (hfree : p.free = i :: free) {key : Flow}
    (hkey : p.slotOf key = none) (now : Instant) :
    Consistent (p.openAt i free key now).1 := by
  have hi : i ∈ p.free := hfree ▸ List.mem_cons_self
  obtain ⟨slot, hs, hidle⟩ := h.idle i hi
  obtain ⟨hconfig, -, -, hf, hg, -, -⟩ := openAt_frame (p := p) (i := i) free key now
  have hnodup : i ∉ free ∧ free.Nodup := List.nodup_cons.mp (hfree ▸ h.free_nodup)
  refine ⟨?_, ?_, ?_, ?_, h.alone_openAt hkey free now, h.generation_inj_openAt hs free key now, ?_⟩
  · rw [hf]
    exact hnodup.2
  · intro j hj
    rw [hf] at hj
    have hne : i ≠ j := fun e => hnodup.1 (e ▸ hj)
    obtain ⟨a, has, haidle⟩ := h.idle j (hfree ▸ List.mem_cons_of_mem i hj)
    rw [slots_openAt hs, if_neg hne, hconfig]
    exact ⟨a, has, haidle⟩
  · intro j a has hj
    rw [hf] at hj
    rw [slots_openAt hs] at has
    rw [hconfig, hg]
    split_ifs at has with hij
    · subst hij
      rw [← Option.some.inj has]
      refine ⟨.new key now, ⟨rfl, rfl, ?_⟩, Nat.le_refl _, ?_⟩
      · exact congrArg SeqCache.maxAge hidle.cache_eq
      · rw [active_openAt]
        exact if_pos rfl
    · have hjfree : j ∉ p.free := by
        rw [hfree]
        exact List.not_mem_cons_of_ne_of_not_mem (Ne.symm hij) hj
      obtain ⟨s, hb, hle, hk⟩ := h.busy j a has hjfree
      refine ⟨s, hb, Nat.le_succ_of_le hle, ?_⟩
      have hne := (h.slotOf_eq_none hkey (occupant_eq_some.mpr ⟨has, hb.phase_eq⟩)).1
      rw [active_openAt, if_neg (Ne.symm hne), hk]
  · intro k j hk
    rw [active_openAt] at hk
    rw [occupant_openAt hs]
    split_ifs at hk with heq
    · obtain rfl := Option.some.inj hk
      exact ⟨_, _, if_pos rfl, heq⟩
    · obtain ⟨a, s, ho, he⟩ := h.mapped k j hk
      have hne : i ≠ j := fun e => h.not_free ho (e ▸ hi)
      exact ⟨a, s, by rw [if_neg hne, ho], he⟩
  · intro hc
    rw [hconfig] at hc
    have hlt := (Array.getElem?_eq_some_iff.mp hs).1
    have := h.capacity hc
    omega

/-- A turn changes what is in the slot, and neither its generation nor its key. -/
theorem afterTurn (h : Consistent p) (ho : p.occupant i = some (slot, session))
    {turn : Lifecycle.Turn} (hkey : turn.next.session.key = session.key)
    (hage : turn.next.cache.maxAge = slot.cache.maxAge) (input : Lifecycle.Input) :
    Consistent (p.afterTurn i slot turn input) := by
  have hslots := slots_afterTurn (lt_size ho) slot turn input
  have hocc := occupant_afterTurn ho turn input
  obtain ⟨hb, hle, hk⟩ := h.of_occupant ho
  -- Whoever is in a slot afterwards was there before, under the same generation.
  have hbefore : ∀ (j : Nat) (a : Slot) (s : Session),
      (p.afterTurn i slot turn input).occupant j = some (a, s) →
        ∃ b t, p.occupant j = some (b, t) ∧ b.generation = a.generation := by
    intro j a s hj
    rw [hocc] at hj
    split_ifs at hj with hij
    · obtain ⟨rfl, rfl⟩ := Prod.mk.inj (Option.some.inj hj)
      exact ⟨slot, session, hij ▸ ho, rfl⟩
    · exact ⟨a, s, hj, rfl⟩
  refine ⟨h.free_nodup, ?_, ?_, ?_, h.alone, ?_, ?_⟩
  · intro j hj
    have hne : i ≠ j := fun e => h.not_free ho (e ▸ hj)
    rw [hslots, if_neg hne]
    exact h.idle j hj
  · intro j a has hj
    rw [hslots] at has
    split_ifs at has with hij
    · subst hij
      rw [← Option.some.inj has]
      refine ⟨turn.next.session, ⟨rfl, hb.owner_eq, hage.trans hb.maxAge_eq⟩, hle, ?_⟩
      rw [hkey]
      exact hk
    · exact h.busy j a has hj
  · intro key j hj
    obtain ⟨a, s, ha, he⟩ := h.mapped key j hj
    rw [hocc]
    by_cases hij : i = j
    · subst hij
      obtain ⟨rfl, rfl⟩ := occupant_unique ho ha
      exact ⟨_, _, if_pos rfl, hkey.trans he⟩
    · exact ⟨a, s, by rw [if_neg hij, ha], he⟩
  · intro j l a b s t ha hb hgen
    obtain ⟨a', s', ha', hga⟩ := hbefore j a s ha
    obtain ⟨b', t', hb', hgb⟩ := hbefore l b t hb
    exact h.generation_inj j l a' b' s' t' ha' hb' (hga.trans (hgen.trans hgb.symm))
  · intro hc
    have hsize : p.slots.size = 0 := h.capacity hc
    exact absurd (lt_size ho) (by omega)

theorem active_retire (h : Consistent p) (ho : p.occupant i = some (slot, session))
    (reason : CloseReason) (key : Flow) :
    (p.retire i slot session reason).active[key]? =
      if session.key = key then none else p.active[key]? := by
  have hk := (h.of_occupant ho).2.2
  exact getElem?_unmap_both hk (h.alone session.key i i hk) key

theorem retire (h : Consistent p) (ho : p.occupant i = some (slot, session))
    (reason : CloseReason) : Consistent (p.retire i slot session reason) := by
  have hslots := slots_retire (lt_size ho) slot session reason
  have hocc := occupant_retire ho reason
  have hactive := h.active_retire ho reason
  obtain ⟨hb, hle, hk⟩ := h.of_occupant ho
  refine ⟨?_, ?_, ?_, ?_, ?_, ?_, ?_⟩
  · exact List.nodup_cons.mpr ⟨h.not_free ho, h.free_nodup⟩
  · intro j hj
    rw [hslots]
    split_ifs with hij
    · refine ⟨_, rfl, rfl, rfl, ?_⟩
      exact congrArg SeqCache.new hb.maxAge_eq
    · exact h.idle j ((List.mem_cons.mp hj).resolve_left (Ne.symm hij))
  · intro j a has hj
    have hne := List.ne_of_not_mem_cons hj
    have hjfree := List.not_mem_of_not_mem_cons hj
    rw [hslots, if_neg (Ne.symm hne)] at has
    obtain ⟨s, hba, hlea, hka⟩ := h.busy j a has hjfree
    refine ⟨s, hba, hlea, ?_⟩
    rw [hactive, if_neg ?_, hka]
    intro heq
    rw [← heq, hk] at hka
    exact hne (Option.some.inj hka).symm
  · intro key j hj
    rw [hactive] at hj
    split_ifs at hj with heq
    obtain ⟨a, s, ha, he⟩ := h.mapped key j hj
    refine ⟨a, s, ?_, he⟩
    rw [hocc, if_neg ?_, ha]
    rintro rfl
    obtain ⟨rfl, rfl⟩ := occupant_unique ho ha
    exact heq he
  · intro key j l hj hl
    rw [hactive] at hj hl
    split_ifs at hj hl
    exact h.alone key j l hj hl
  · intro j l a b s t ha hb hgen
    rw [hocc] at ha hb
    split_ifs at ha hb
    exact h.generation_inj j l a b s t ha hb hgen
  · intro hc
    have hsize : p.slots.size = 0 := h.capacity hc
    exact absurd (lt_size ho) (by omega)

/-! ## Steps and runs -/

/-- The turn of the session in a slot keeps the pool consistent, whatever the input. -/
theorem afterTurnOf (h : Consistent p) (ho : p.occupant i = some (slot, session))
    (input : Lifecycle.Input) :
    Consistent (p.afterTurn i slot (p.turnOf slot session input) input) := by
  refine h.afterTurn ho ?_ ?_ input
  · exact Lifecycle.key_turn _ _ _ _ input
  · exact (Lifecycle.settings_turn _ _ _ _ input).1

theorem close_eq (h : Consistent p) (ho : p.occupant i = some (slot, session))
    (reason : CloseReason) :
    p.close i slot.generation reason = p.retire i slot session reason :=
  close_eq_retire ho (h.of_occupant ho).1.owner_eq reason

theorem attend_eq (h : Consistent p) (ho : p.occupant i = some (slot, session))
    {input : Lifecycle.Input} (hf : input.isFor session = true) :
    p.attend i input =
      let turn := p.turnOf slot session input
      let q := p.afterTurn i slot turn input
      if turn.done then q.retire i (slot.turned turn input) turn.next.session input.reason
      else q := by
  rw [attend_of_for ho hf]
  dsimp only
  have hq := h.afterTurnOf ho input
  rw [← hq.close_eq (occupant_afterTurn_self ho _ input)]
  rfl

end Consistent

/-- **What a step of a consistent pool comes to**, with all that is known where it does. -/
inductive Move (p : Pool) : PoolStep → Pool → Prop where
  /-- The step is about nobody. -/
  | still {s : PoolStep} (ht : p.tenantOf s = none) : Move p s p
  /-- The segment finds a session, or opens none. -/
  | seen {key : Flow} {isOpening isEnding : Bool} {now : Instant} :
    Move p (.resolve key isOpening isEnding now) (p.raised now)
  /-- The segment would open a session, but there is no slot. -/
  | starved {key : Flow} {isOpening isEnding : Bool} {now : Instant}
    (hfree : (p.raised now).stocked.free = []) :
    Move p (.resolve key isOpening isEnding now) (p.raised now).stocked
  /-- The segment opens a session. -/
  | opened {key : Flow} {isOpening isEnding : Bool} {now : Instant} {i : Nat} {free : List Nat}
    (hkey : p.slotOf key = none) (hfree : (p.raised now).stocked.free = i :: free) :
    Move p (.resolve key isOpening isEnding now) ((p.raised now).stocked.openAt i free key now).1
  /-- A session takes an input. -/
  | turned {i : Nat} {slot : Slot} {session : Session} {input : Lifecycle.Input}
    (ho : p.occupant i = some (slot, session)) (hf : input.isFor session = true)
    (hdone : (p.turnOf slot session input).done = false) :
    Move p (.attend i input) (p.afterTurn i slot (p.turnOf slot session input) input)
  /-- A session takes an input and is done. -/
  | finished {i : Nat} {slot : Slot} {session : Session} {input : Lifecycle.Input}
    (ho : p.occupant i = some (slot, session)) (hf : input.isFor session = true)
    (hdone : (p.turnOf slot session input).done = true) :
    Move p (.attend i input)
      ((p.afterTurn i slot (p.turnOf slot session input) input).retire i
        (slot.turned (p.turnOf slot session input) input)
        (p.turnOf slot session input).next.session input.reason)
  /-- A session is closed from outside. -/
  | closed {i : Nat} {slot : Slot} {session : Session} {reason : CloseReason}
    (ho : p.occupant i = some (slot, session)) :
    Move p (.close i slot.generation reason) (p.retire i slot session reason)

namespace Consistent

theorem move_resolve (key : Flow) (isOpening isEnding : Bool) (now : Instant) :
    Move p (.resolve key isOpening isEnding now)
      (p.step (.resolve key isOpening isEnding now)) := by
  unfold step
  dsimp only
  rcases hk : p.slotOf key with _ | i
  · rcases hopen : isOpening && !isEnding with _ | _
    · rw [resolve_of_refused hk hopen]
      exact .seen
    · rw [resolve_of_opening hk hopen]
      rcases hfree : (p.raised now).stocked.free with _ | ⟨i, free⟩
      · exact .starved hfree
      · exact .opened hk hfree
  · rw [resolve_of_mapped hk]
    exact .seen

theorem move_attend (h : Consistent p) (i : Nat) (input : Lifecycle.Input) :
    Move p (.attend i input) (p.step (.attend i input)) := by
  unfold step
  dsimp only
  rcases ho : p.occupant i with _ | ⟨slot, session⟩
  · rw [attend_of_empty ho]
    refine .still ?_
    rw [tenantOf, ho]
    rfl
  · rcases hf : input.isFor session with _ | _
    · rw [attend_of_not_for ho hf]
      refine .still ?_
      rw [tenantOf, ho, Option.any_some, hf]
      rfl
    · rw [h.attend_eq ho hf]
      dsimp only
      rcases hdone : (p.turnOf slot session input).done with _ | _
      · exact .turned ho hf hdone
      · exact .finished ho hf hdone

theorem move_close (h : Consistent p) (i generation : Nat) (reason : CloseReason) :
    Move p (.close i generation reason) (p.step (.close i generation reason)) := by
  unfold step
  dsimp only
  by_cases hg : ∃ slot session, p.occupant i = some (slot, session) ∧ slot.generation = generation
  · obtain ⟨slot, session, ho, rfl⟩ := hg
    rw [h.close_eq ho]
    exact .closed ho
  · rw [close_eq_self reason fun slot session ho he => hg ⟨slot, session, ho, he⟩]
    refine .still (if_neg fun hany => hg ?_)
    obtain ⟨⟨slot, session⟩, ho, he⟩ := (Option.any_eq_true _ _).mp hany
    exact ⟨slot, session, ho, beq_iff_eq.mp he⟩

/-- Every step of a consistent pool is such a move. -/
theorem move (h : Consistent p) (s : PoolStep) : Move p s (p.step s) := by
  cases s with
  | resolve key isOpening isEnding now => exact move_resolve key isOpening isEnding now
  | attend i input => exact h.move_attend i input
  | close i generation reason => exact h.move_close i generation reason

theorem of_move (h : Consistent p) {s : PoolStep} {q : Pool} (hm : Move p s q) :
    Consistent q := by
  cases hm with
  | still => exact h
  | seen => exact h.raised _
  | starved => exact (h.raised _).stocked
  | opened hkey hfree => exact (h.raised _).stocked.openAt hfree (slotOf_stocked.trans hkey) _
  | turned ho => exact h.afterTurnOf ho _
  | finished ho => exact (h.afterTurnOf ho _).retire (occupant_afterTurn_self ho _ _) _
  | closed ho => exact h.retire ho _

/-- What stands in the slots once a session has been opened: a new session on a new cache in a slot
that held none, and the same as before everywhere else. -/
theorem occupant_opened (h : Consistent p) {now : Instant} {free : List Nat}
    (hfree : (p.raised now).stocked.free = i :: free) (key : Flow) :
    ∃ slot : Slot, slot.generation = p.generation + 1 ∧ slot.cache = .new p.config.rttMaxAge ∧
      slot.lastSeen = clampInt64 now ∧ p.occupant i = none ∧
      ∀ j, ((p.raised now).stocked.openAt i free key now).1.occupant j =
        if i = j then some (slot, .new key now) else p.occupant j := by
  have hstocked := (h.raised now).stocked
  have hi : i ∈ (p.raised now).stocked.free := hfree ▸ List.mem_cons_self
  have hsame : ∀ j, (p.raised now).stocked.occupant j = p.occupant j :=
    fun j => occupant_stocked (p := p.raised now) j
  have hgen : (p.raised now).stocked.generation = p.generation := generation_stocked
  have hconfig : (p.raised now).stocked.config = p.config := config_stocked
  obtain ⟨slot, hs, hidle⟩ := hstocked.idle i hi
  refine ⟨slot.openWith key now ((p.raised now).stocked.generation + 1),
    congrArg (· + 1) hgen, ?_, rfl, ?_, ?_⟩
  · rw [← hconfig]
    exact hidle.cache_eq
  · rw [← hsame]
    exact hstocked.occupant_of_free hi
  · intro j
    rw [occupant_openAt hs, hsame]

theorem step (h : Consistent p) (s : PoolStep) : Consistent (p.step s) := h.of_move (h.move s)

/-- **Every run keeps the invariant.** -/
theorem steps (h : Consistent p) (ss : List PoolStep) : Consistent (p.steps ss) := by
  induction ss generalizing p with
  | nil => exact h
  | cons s ss ih => exact ih (h.step s)

end Consistent

end Pool

end FlowWatch
