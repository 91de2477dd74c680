/-
How many slots a pool has.

A pool takes its slots from the free list and grows only when that list is empty, which is when every
slot has a session. It then doubles. So the number of slots depends on one figure alone, the most
sessions that were open at one time so far: it is the least doubling of the initial capacity that holds
them (`Doubled`). How many sessions came and went does not matter, because each of them gave its slot
back.

The arithmetic comes first, on numbers. `Tallied` ties it to a pool, and resolving a segment keeps it
whatever else goes on; all that the other steps have to do for it is to keep the slots and the balance of
free and mapped ones. This is why it also holds while sessions are closing whose slots are late to come
back, if these count as open until then.

A session needs a queue besides a slot. Where none can be made there is no run to speak of: the first
segment that may open a session breaks off.
-/
import FlowWatch.Proofs.Pool.Books
import FlowWatch.Proofs.Pool.Race
import Mathlib.Order.Bounds.Basic

set_option autoImplicit false

namespace FlowWatch

/-! ## Doubling -/

/-- The slots that an initial capacity leads to when `most` sessions were open at one time: none for none,
and else the least doubling of the capacity that holds them. -/
structure Doubled (capacity most slots : Nat) : Prop where
  none : most = 0 → slots = 0
  least : most ≠ 0 → IsLeast {n | (∃ k, n = capacity * 2 ^ k) ∧ most ≤ n} slots

namespace Doubled

variable {capacity most slots : Nat}

/-- More sessions change nothing as long as there are slots for them. -/
theorem raise (h : Doubled capacity most slots) {more : Nat} (hle : most ≤ more)
    (hfits : more ≤ slots) : Doubled capacity more slots := by
  constructor
  · intro hzero
    exact h.none (by omega)
  · intro hmore
    -- Where sessions fit in there are slots, so there was a session before.
    have hmost : most ≠ 0 := by
      intro hzero
      have hslots := h.none hzero
      omega
    obtain ⟨⟨hpower, -⟩, hleast⟩ := h.least hmost
    refine ⟨⟨hpower, hfits⟩, ?_⟩
    rintro n ⟨hn, hbound⟩
    exact hleast ⟨hn, hle.trans hbound⟩

/-- When all slots are taken, one session more needs the next doubling. -/
theorem double (h : Doubled capacity slots slots) (hcapacity : capacity ≠ 0) :
    Doubled capacity (slots + 1) (slots + if slots = 0 then capacity else slots) := by
  constructor
  · intro hzero
    omega
  · intro _
    by_cases hslots : slots = 0
    · subst hslots
      rw [if_pos rfl, Nat.zero_add capacity]
      refine ⟨⟨⟨0, (Nat.mul_one capacity).symm⟩, by omega⟩, ?_⟩
      rintro n ⟨⟨k, rfl⟩, -⟩
      exact Nat.le_mul_of_pos_right capacity (Nat.two_pow_pos k)
    · obtain ⟨⟨⟨k, hk⟩, -⟩, -⟩ := h.least hslots
      rw [if_neg hslots]
      have hnext : slots + slots = capacity * 2 ^ (k + 1) := by
        rw [Nat.pow_succ, ← Nat.mul_assoc, ← hk, Nat.mul_two]
      refine ⟨⟨⟨k + 1, hnext⟩, by omega⟩, ?_⟩
      rintro n ⟨⟨j, rfl⟩, hbound⟩
      -- A power that is no larger than the present one does not hold the new session.
      have hlarger : k < j := by
        by_contra hsmall
        have hle : capacity * 2 ^ j ≤ capacity * 2 ^ k :=
          Nat.mul_le_mul_left capacity (Nat.pow_le_pow_right (by omega) (by omega))
        omega
      rw [hnext]
      exact Nat.mul_le_mul_left capacity (Nat.pow_le_pow_right (by omega) hlarger)

/-- More sessions never call for fewer slots. -/
theorem le (h : Doubled capacity most slots) {more later : Nat} (h' : Doubled capacity more later)
    (hle : most ≤ more) : slots ≤ later := by
  by_cases hmost : most = 0
  · rw [h.none hmost]
    exact Nat.zero_le later
  · obtain ⟨⟨hpower, hbound⟩, -⟩ := h'.least (by omega)
    exact (h.least hmost).2 ⟨hpower, hle.trans hbound⟩

end Doubled

namespace Pool

variable {config : Config} {p q : Pool} {i most : Nat} {key : Flow} {isOpening isEnding : Bool}

/-- Every slot is free or mapped. -/
def AddsUp (p : Pool) : Prop := p.free.length + p.active.size = p.slots.size

/-- A pool whose slots are those that the most mapped connections so far call for. -/
structure Tallied (config : Config) (most : Nat) (p : Pool) : Prop where
  config_eq : p.config = config
  capacity : config.initialPoolCapacity ≠ 0
  addsUp : p.AddsUp
  active_le : p.active.size ≤ most
  doubled : Doubled config.initialPoolCapacity.toNat most p.slots.size

/-! ## Resolving -/

/-- Growth doubles the slots, and the first one makes those of the capacity. -/
theorem size_slots_stocked : p.stocked.slots.size =
    if p.free = [] then
      p.slots.size + if p.slots.size = 0 then p.config.initialPoolCapacity.toNat else p.slots.size
    else p.slots.size := by
  unfold Pool.stocked
  by_cases hfree : p.free = []
  · rw [if_pos hfree, if_pos (List.isEmpty_iff.mpr hfree)]
    unfold grow note growth
    simp
  · rw [if_neg hfree, if_neg (mt List.isEmpty_iff.mp hfree)]

theorem active_stocked : p.stocked.active = p.active := by
  unfold Pool.stocked
  split_ifs <;> rfl

theorem addsUp_stocked (h : p.AddsUp) : p.stocked.AddsUp := by
  unfold Pool.stocked
  split_ifs
  · unfold AddsUp grow note at *
    simp only [List.length_append, List.length_range', Array.size_append, Array.size_replicate]
    omega
  · exact h

/-- Opening takes one slot from the free list and maps one connection more. -/
theorem addsUp_openAt (h : p.AddsUp) {free : List Nat} (hfree : p.free = i :: free)
    (hkey : p.active[key]? = none) (now : Instant) :
    let q := (p.openAt i free key now).1
    q.AddsUp ∧ q.slots.size = p.slots.size ∧ q.active.size = p.active.size + 1 := by
  obtain ⟨-, -, -, hf, -, hactive, hslots⟩ := openAt_frame (p := p) (i := i) free key now
  have habsent : key ∉ p.active := by
    rw [Std.HashMap.mem_iff_isSome_getElem?, hkey]
    exact Bool.false_ne_true
  have hsize : (p.openAt i free key now).1.active.size = p.active.size + 1 := by
    rw [hactive, Std.HashMap.size_insert, if_neg habsent]
  have hsame : (p.openAt i free key now).1.slots.size = p.slots.size := by
    rw [hslots, Array.size_modify]
  refine ⟨?_, hsame, hsize⟩
  unfold AddsUp at *
  rw [hf, hsize, hsame]
  rw [hfree, List.length_cons] at h
  omega

namespace Tallied

/-- What keeps the slots, and the balance of free and mapped ones, keeps the tally. -/
theorem kept (h : p.Tallied config most) (hconfig : q.config = p.config) (hsum : q.AddsUp)
    (hslots : q.slots.size = p.slots.size) : q.Tallied config (max most q.active.size) := by
  refine ⟨hconfig.trans h.config_eq, h.capacity, hsum, Nat.le_max_right _ _, ?_⟩
  rw [hslots]
  by_cases hle : q.active.size ≤ most
  · rw [Nat.max_eq_left hle]
    exact h.doubled
  · -- A new peak, but mapped slots are slots.
    rw [Nat.max_eq_right (by omega)]
    refine h.doubled.raise (by omega) ?_
    unfold AddsUp at hsum
    omega

/-- When no slot is free, all of them are taken, and there were never more sessions open before. -/
theorem all_taken (h : p.Tallied config most) (hempty : p.free = []) :
    p.active.size = p.slots.size ∧ most = p.slots.size := by
  have htaken : p.active.size = p.slots.size := by
    have hbalance := h.addsUp
    unfold AddsUp at hbalance
    rw [hempty] at hbalance
    simpa using hbalance
  have hle := h.active_le
  refine ⟨htaken, ?_⟩
  -- The slots hold the peak, and as many connections as there are slots are mapped now.
  by_cases hzero : most = 0
  · have hslots := h.doubled.none hzero
    omega
  · have hbound := (h.doubled.least hzero).1.2
    omega

/-- One connection more, with a new doubling if there was no free slot. -/
theorem opened (h : p.Tallied config most) (hconfig : q.config = p.config) (hsum : q.AddsUp)
    (hactive : q.active.size = p.active.size + 1)
    (hslots : q.slots.size = if p.free = [] then
        p.slots.size + if p.slots.size = 0 then p.config.initialPoolCapacity.toNat else p.slots.size
      else p.slots.size) : q.Tallied config (max most q.active.size) := by
  by_cases hempty : p.free = []
  · obtain ⟨htaken, hmost⟩ := h.all_taken hempty
    have hnow : max most q.active.size = p.slots.size + 1 := by omega
    have hcapacity : config.initialPoolCapacity.toNat ≠ 0 := fun hzero =>
      h.capacity (UInt64.toNat_inj.mp hzero)
    rw [if_pos hempty, h.config_eq] at hslots
    refine ⟨hconfig.trans h.config_eq, h.capacity, hsum, Nat.le_max_right _ _, ?_⟩
    rw [hnow, hslots]
    exact (hmost ▸ h.doubled).double hcapacity
  · rw [if_neg hempty] at hslots
    exact h.kept hconfig hsum hslots

/-- **A segment that may open a session opens one**, and the next generation gets it. -/
theorem resolve_opening (h : p.Tallied config most) (hkey : p.slotOf key = none)
    (hopen : (isOpening && !isEnding) = true) (now : Instant) :
    let out := p.resolve key isOpening isEnding now
    out.1.Tallied config (max most out.1.active.size) ∧ out.1.active.size = p.active.size + 1 ∧
      ∃ i, out.2 = some ⟨i, p.generation + 1, key⟩ ∧
        ∀ k, out.1.active[k]? = if key = k then some i else p.active[k]? := by
  obtain ⟨hnone, -⟩ := unmapped_of_slotOf hkey
  have hcapacity : p.config.initialPoolCapacity ≠ 0 := h.config_eq.symm ▸ h.capacity
  have hactive : (p.raised now).stocked.active = p.active := active_stocked
  have hsum : (p.raised now).stocked.AddsUp := addsUp_stocked (p := p.raised now) h.addsUp
  dsimp only
  rw [resolve_of_opening hkey hopen]
  rcases hfree : (p.raised now).stocked.free with _ | ⟨i, free⟩
  · -- A pool with capacity always has a slot to give.
    exact absurd hfree (Consistent.stocked_free_ne_nil (p := p.raised now) hcapacity)
  · obtain ⟨hnext, hslots, hsize⟩ := addsUp_openAt hsum hfree (hactive ▸ hnone) now
    have hconfig := (openAt_frame (p := (p.raised now).stocked) (i := i) free key now).1
    rw [hactive] at hsize
    refine ⟨?_, hsize, i, ?_, ?_⟩
    · exact h.opened (hconfig.trans config_stocked) hnext hsize
        (hslots.trans (size_slots_stocked (p := p.raised now)))
    · rw [openAt_handle, generation_stocked]
      rfl
    · intro k
      rw [active_openAt, hactive]

/-- Any segment. -/
theorem resolve (h : p.Tallied config most) (key : Flow) (isOpening isEnding : Bool) (now : Instant) :
    let q := (p.resolve key isOpening isEnding now).1
    q.Tallied config (max most q.active.size) := by
  dsimp only
  rcases hkey : p.slotOf key with _ | i
  · rcases hopen : isOpening && !isEnding with _ | _
    · rw [resolve_of_refused hkey hopen]
      exact h.kept rfl h.addsUp rfl
    · exact (h.resolve_opening hkey hopen now).1
  · rw [resolve_of_mapped hkey]
    exact h.kept rfl h.addsUp rfl

/-- **Every step of a pool keeps the tally.** -/
theorem step (h : p.Tallied config most) (hp : p.Consistent) (s : PoolStep) :
    (p.step s).Tallied config (max most (p.step s).active.size) := by
  cases s with
  | resolve key isOpening isEnding now => exact h.resolve key isOpening isEnding now
  -- For the other two steps the balance is that of consistent pools, and a slot is only overwritten.
  | attend i input =>
    have hsum := (hp.step (.attend i input)).free_length_add_active_size
    have hmove := hp.move (.attend i input)
    generalize p.step (.attend i input) = q at hsum hmove ⊢
    cases hmove with
    | still => exact h.kept rfl hsum rfl
    | turned => exact h.kept rfl hsum Array.size_setIfInBounds
    | finished =>
      refine h.kept rfl hsum ?_
      unfold retire afterTurn
      simp
  | close i generation reason =>
    have hsum := (hp.step (.close i generation reason)).free_length_add_active_size
    have hmove := hp.move (.close i generation reason)
    generalize p.step (.close i generation reason) = q at hsum hmove ⊢
    cases hmove with
    | still => exact h.kept rfl hsum rfl
    | closed => exact h.kept rfl hsum Array.size_setIfInBounds

end Tallied

/-! ## Runs -/

/-- The most sessions that are open at one time, before and between some steps and after them. -/
def peak (p : Pool) : List PoolStep → Nat
  | [] => p.openSessions.length
  | s :: ss => max p.openSessions.length ((p.step s).peak ss)

theorem Consistent.length_openSessions (h : p.Consistent) :
    p.openSessions.length = p.active.size := h.card_live.1.symm.trans h.card_live.2

/-- The peak is reached, and at no moment more sessions are open. -/
theorem isGreatest_peak (p : Pool) (ss : List PoolStep) :
    IsGreatest {n | ∃ k, n = (p.steps (ss.take k)).openSessions.length} (p.peak ss) := by
  induction ss generalizing p with
  | nil =>
    refine ⟨⟨0, rfl⟩, ?_⟩
    rintro n ⟨k, rfl⟩
    rw [List.take_nil]
    exact Nat.le_refl _
  | cons s ss ih =>
    obtain ⟨⟨k, hk⟩, hbound⟩ := ih (p.step s)
    rw [peak]
    constructor
    · by_cases hle : p.openSessions.length ≤ (p.step s).peak ss
      · exact ⟨k + 1, (Nat.max_eq_right hle).trans hk⟩
      · exact ⟨0, Nat.max_eq_left (by omega)⟩
    · rintro n ⟨j, rfl⟩
      cases j with
      | zero => exact Nat.le_max_left _ _
      | succ j => exact (hbound ⟨j, rfl⟩).trans (Nat.le_max_right _ _)

theorem length_openSessions_le_peak (ss : List PoolStep) : p.openSessions.length ≤ p.peak ss :=
  (p.isGreatest_peak ss).2 ⟨0, rfl⟩

theorem Tallied.new (registry : Registry) (hc : config.initialPoolCapacity ≠ 0) :
    (Pool.new config registry).Tallied config 0 :=
  ⟨rfl, hc, rfl, Nat.le_refl 0, fun _ => rfl, fun h => absurd rfl h⟩

/-- **Every run of a pool keeps the tally.** -/
theorem Tallied.steps (h : p.Tallied config most) (hp : p.Consistent) (ss : List PoolStep) :
    (p.steps ss).Tallied config (max most (p.peak ss)) := by
  induction ss generalizing p most with
  | nil =>
    have hle := h.active_le
    rw [peak, hp.length_openSessions, Nat.max_eq_left hle]
    exact h
  | cons s ss ih =>
    have hlast := ih (h.step hp s) (hp.step s)
    -- The figures before and after the step are among those of the run.
    have hle := h.active_le
    have hnext := (p.step s).length_openSessions_le_peak ss
    rw [(hp.step s).length_openSessions] at hnext
    have hpeak : max most (p.peak (s :: ss)) =
        max (max most (p.step s).active.size) ((p.step s).peak ss) := by
      rw [peak, hp.length_openSessions]
      omega
    rw [hpeak]
    exact hlast

end Pool

namespace Race

open Pool

variable {config : Config} {r : Race} {most : Nat}

/-- The most connections that are mapped at one time in a race, whether their session is open or has begun
to close. -/
def peak (r : Race) : List RaceStep → Nat
  | [] => r.pool.active.size
  | s :: ss => max r.pool.active.size ((r.step s).peak ss)

/-- A slot that is taken back is one more on the free list, for one connection less. -/
theorem addsUp_takeBack (h : r.Steady) (hsum : r.pool.AddsUp) {a : Handle} (ha : r.Closing a)
    (slot : Slot) : (r.takeBack a slot).pool.AddsUp := by
  have hnamed : a.key ∈ r.pool.active := by
    rw [Std.HashMap.mem_iff_isSome_getElem?, h.named a (.inr ha)]
    rfl
  -- Of the two mappings that are dropped at most one is there.
  have hactive : (r.takeBack a slot).pool.active.size = (r.pool.active.erase a.key).size := by
    apply Std.HashMap.Equiv.size_eq
    apply Std.HashMap.Equiv.of_forall_getElem?_eq
    intro k
    rw [h.active_takeBack ha, Std.HashMap.getElem?_erase]
    simp only [beq_iff_eq]
  have hpos : 0 < r.pool.active.size := by
    rw [Nat.pos_iff_ne_zero]
    intro hzero
    have hempty : r.pool.active.isEmpty = true := by
      rw [Std.HashMap.isEmpty_eq_size_eq_zero, hzero]
      rfl
    exact Std.HashMap.isEmpty_iff_forall_not_mem.mp hempty a.key hnamed
  unfold AddsUp at *
  rw [hactive, Std.HashMap.size_erase, if_pos hnamed]
  unfold takeBack
  simp only [List.length_cons, Array.size_setIfInBounds]
  omega

/-- **Every step of a race keeps the tally.** -/
theorem tallied_step (h : r.pool.Tallied config most) (hr : r.Steady) (s : RaceStep) :
    (r.step s).pool.Tallied config (max most (r.step s).pool.active.size) := by
  cases s with
  | resolve key isOpening isEnding now => exact h.resolve key isOpening isEnding now
  | attempt i generation =>
    unfold Race.step
    dsimp only
    by_cases hg : ∃ slot session, r.pool.occupant i = some (slot, session) ∧
        slot.generation = generation
    · obtain ⟨slot, session, ho, rfl⟩ := hg
      rw [startClosing_of_occupant ho]
      refine h.kept rfl ?_ Array.size_setIfInBounds
      have hsum := h.addsUp
      unfold AddsUp setSlot at *
      rwa [Array.size_setIfInBounds]
    · rw [startClosing_of_other fun slot session ho he => hg ⟨slot, session, ho, he⟩]
      exact h.kept rfl h.addsUp rfl
  | release n =>
    unfold Race.step
    dsimp only
    rcases hn : r.begun[n]? with _ | a
    · exact h.kept rfl h.addsUp rfl
    · dsimp only
      -- Only the first release of a closing gives the slot back.
      by_cases ha : a ∈ r.released
      · rw [hr.releaseOf_again ha]
        exact h.kept rfl h.addsUp rfl
      · have hclosing : r.Closing a := ⟨List.mem_of_getElem? hn, ha⟩
        obtain ⟨slot, hs, hfirst⟩ := hr.releaseOf_first hclosing
        rw [hfirst]
        exact h.kept rfl (addsUp_takeBack hr h.addsUp hclosing slot) Array.size_setIfInBounds

theorem size_active_le_peak (ss : List RaceStep) : r.pool.active.size ≤ r.peak ss := by
  cases ss with
  | nil => exact Nat.le_refl _
  | cons s ss => exact Nat.le_max_left _ _

/-- **Every race keeps the tally.** -/
theorem tallied_run (h : r.pool.Tallied config most) (hr : r.Steady) (ss : List RaceStep) :
    (r.run ss).pool.Tallied config (max most (r.peak ss)) := by
  induction ss generalizing r most with
  | nil =>
    rw [peak, Nat.max_eq_left h.active_le]
    exact h
  | cons s ss ih =>
    have hlast := ih (tallied_step h hr s) (hr.step s)
    -- As in a run of the pool, the mapped connections on either side of the step are counted.
    have hle := h.active_le
    have hnext := (r.step s).size_active_le_peak ss
    have hpeak : max most (r.peak (s :: ss)) =
        max (max most (r.step s).pool.active.size) ((r.step s).peak ss) := by
      rw [peak]
      omega
    rw [hpeak]
    exact hlast

end Race

/-- **The slots of a pool follow the peak.** A pool with an initial capacity, for which queues can be made,
has no slots before the first session, and then as many as the least doubling of this capacity that holds
the most sessions that were open at one time, after all steps and hence in all runs of a tracker. Slots are
never taken away, no call breaks off, and a segment that may open a session opens one and gets its handle.
None of this changes when closes race: while a session is closing and its slot has not been taken back, its
connection counts, and it alone gets no handle. -/
theorem Pool.slots_follow_peak (config : Config) (registry : Registry)
    (hc : config.initialPoolCapacity ≠ 0) (hq : config.hasQueue = true) (ss : List PoolStep) :
    let start := Pool.new config registry
    let capacity := config.initialPoolCapacity.toNat
    let last := start.steps ss
    Doubled capacity (start.peak ss) last.slots.size ∧
      (∀ more, last.slots.size ≤ (last.steps more).slots.size) ∧
      (∀ key isOpening isEnding now,
        last.resolve? key isOpening isEnding now = some (last.resolve key isOpening isEnding now)) ∧
      (∀ key now, ¬last.HasSession key → ∃ q i,
        last.resolve? key true false now = some (q, some ⟨i, last.generation + 1, key⟩) ∧
          last.Opens q key now) ∧
      (∀ name calls, ((Tracker.new name config registry).run calls).pool =
        start.steps (start.stepsOfAll calls)) ∧
      ∀ rs, let race := (Race.start last).run rs
        Doubled capacity (max (start.peak ss) ((Race.start last).peak rs)) race.pool.slots.size ∧
          (∀ more, race.pool.slots.size ≤ (race.run more).pool.slots.size) ∧
          (∀ key isOpening isEnding now, race.pool.resolve? key isOpening isEnding now =
            some (race.pool.resolve key isOpening isEnding now)) ∧
          ∀ key now, race.pool.slotOf key = none →
            ∃ q h, race.pool.resolve? key true false now = some (q, some h) := by
  intro start capacity last
  have hstart : start.Consistent := Pool.Consistent.new config registry
  have hlast : last.Consistent := hstart.steps ss
  have htally : last.Tallied config (start.peak ss) :=
    Nat.zero_max (start.peak ss) ▸ (Pool.Tallied.new registry hc).steps hstart ss
  have hsyn : (true && !false) = true := rfl
  have hreturns := Pool.resolve?_of_hasQueue (p := last) (htally.config_eq ▸ hq)
  refine ⟨htally.doubled, ?_, hreturns, ?_, ?_, ?_⟩
  · intro more
    exact htally.doubled.le (htally.steps hlast more).doubled (Nat.le_max_left _ _)
  · intro key now hnone
    have hkey : last.slotOf key = none := not_not.mp (mt hlast.hasSession_iff.mpr hnone)
    obtain ⟨-, -, i, hhandle, -⟩ := htally.resolve_opening hkey hsyn now
    refine ⟨_, i, ?_, hlast.opens hnone rfl rfl (htally.config_eq ▸ hc)⟩
    rw [hreturns, ← hhandle]
  · intro name calls
    exact (Tracker.new name config registry).pool_run calls
  · intro rs race
    have hsteady : (Race.start last).Steady := Race.Steady.start hlast
    have hrace := Race.tallied_run (r := Race.start last) htally hsteady rs
    have hreturns := Pool.resolve?_of_hasQueue (p := race.pool) (hrace.config_eq ▸ hq)
    refine ⟨hrace.doubled, ?_, hreturns, ?_⟩
    · intro more
      exact hrace.doubled.le (Race.tallied_run hrace (hsteady.run rs) more).doubled
        (Nat.le_max_left _ _)
    · intro key now hkey
      obtain ⟨-, -, i, hhandle, -⟩ := hrace.resolve_opening hkey hsyn now
      refine ⟨(race.pool.resolve key true false now).1, ⟨i, race.pool.generation + 1, key⟩, ?_⟩
      rw [hreturns, ← hhandle]

/-- Two connections at a time double an initial capacity of one. -/
theorem Pool.two_slots_for_two_connections :
    let config : Config := { initialPoolCapacity := 1 }
    let a : Flow := ⟨.v4 ⟨10, 0, 0, 1⟩, 40000, .v4 ⟨10, 0, 0, 2⟩, 80⟩
    let b : Flow := ⟨.v4 ⟨10, 0, 0, 3⟩, 40000, .v4 ⟨10, 0, 0, 2⟩, 80⟩
    let start := Pool.new config .empty
    let ss : List PoolStep := [.resolve a true false 0, .resolve b true false 1000]
    config.initialPoolCapacity ≠ 0 ∧ config.hasQueue = true ∧ start.peak ss = 2 ∧
      (start.steps ss).slots.size = 2 := by
  intro config a b start ss
  have hc : config.initialPoolCapacity ≠ 0 := by decide
  have hq : config.hasQueue = true := by decide
  have hsyn : (true && !false) = true := rfl
  have hnew : start.Tallied config 0 := Pool.Tallied.new .empty hc
  have hstart : start.Consistent := Pool.Consistent.new config .empty
  -- Neither connection is mapped when its segment comes.
  have hnone : ∀ k : Flow, start.active[k]? = none := fun k => Std.HashMap.getElem?_empty
  have hfirst : start.slotOf a = none := by
    unfold Pool.slotOf
    rw [hnone, hnone]
    rfl
  obtain ⟨hone, hsize, i, -, hactive⟩ := hnew.resolve_opening hfirst hsyn 0
  have hsecond : (start.resolve a true false 0).1.slotOf b = none := by
    unfold Pool.slotOf
    rw [hactive, hactive, if_neg (by decide), if_neg (by decide), hnone, hnone]
    rfl
  obtain ⟨-, hsizes, -⟩ := hone.resolve_opening hsecond hsyn 1000
  have hpeak : start.peak ss = 2 := by
    rw [Pool.peak, Pool.peak, Pool.peak, hstart.length_openSessions,
      (hstart.step _).length_openSessions, ((hstart.step _).step _).length_openSessions]
    show max start.active.size (max (start.resolve a true false 0).1.active.size
      ((start.resolve a true false 0).1.resolve b true false 1000).1.active.size) = 2
    rw [hsizes, hsize]
    rfl
  obtain ⟨hdoubled, -⟩ := Pool.slots_follow_peak config .empty hc hq ss
  rw [hpeak] at hdoubled
  obtain ⟨⟨-, hfits⟩, hleast⟩ := hdoubled.least (by decide)
  exact ⟨hc, hq, hpeak, Nat.le_antisymm (hleast ⟨⟨1, rfl⟩, Nat.le_refl 2⟩) hfits⟩

/-- Without a queue no session opens, however many slots there can be: at capacity zero, which is refused,
and at one beyond the limit, which is not. -/
theorem Pool.no_session_without_queue :
    let zero : Config := { queueCapacity := 0, initialPoolCapacity := 1 }
    let beyond : Config := { queueCapacity := 2305843009213693952, initialPoolCapacity := 1 }
    let key : Flow := ⟨.v4 ⟨10, 0, 0, 1⟩, 40000, .v4 ⟨10, 0, 0, 2⟩, 80⟩
    zero.validate = .error ⟨.queueCapacity, .zero⟩ ∧ beyond.validate = .ok () ∧
      ∀ config ∈ [zero, beyond], let start := Pool.new config .empty
        config.initialPoolCapacity ≠ 0 ∧ ¬start.HasSession key ∧
          start.resolve? key true false 0 = none := by
  intro zero beyond key
  have hqueues : ∀ config ∈ [zero, beyond],
      config.initialPoolCapacity ≠ 0 ∧ config.hasQueue = false := by decide
  refine ⟨by decide, by decide, ?_⟩
  intro config hconfig start
  have hstart : start.Consistent := Pool.Consistent.new config .empty
  have hnone : ¬start.HasSession key := by
    rintro ⟨i, slot, session, ho, -⟩
    exact absurd (Pool.lt_size ho) (Nat.not_lt_zero i)
  have hqueue := hqueues config hconfig
  exact ⟨hqueue.1, hnone, hstart.breaks_off.mpr ⟨hnone, rfl, rfl, hqueue⟩⟩

end FlowWatch
