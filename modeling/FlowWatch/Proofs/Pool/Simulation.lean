/-
Pools that go through the same steps.

What a pool does does not hang on all that is in its slots. A `Likeness` relates slots that agree in what
the pool looks at, and whatever the pool itself does to related slots leaves them related; what becomes
of a turn is left to whoever uses the relation. Two pools are alike if their slots are, place by place,
if everything else in them is the same, and if they have told the same of the notices that count.

Steps lead from alike pools to alike pools as long as the turns in them do. A turn of which nothing shows
may also come on one side alone.
-/
import FlowWatch.Proofs.Pool.Books

set_option autoImplicit false

namespace FlowWatch

/-- A relation between slots that agree in what a pool looks at. -/
structure Slot.Likeness (R : Slot → Slot → Prop) : Prop where
  fresh : ∀ maxAge, R (.fresh maxAge) (.fresh maxAge)
  openWith : ∀ {a b}, R a b → ∀ key now generation,
    R (a.openWith key now generation) (b.openWith key now generation)
  vacated : ∀ {a b}, R a b → R a.vacated b.vacated
  frame : ∀ {a b}, R a b →
    b.generation = a.generation ∧ b.owner = a.owner ∧ b.lastSeen = a.lastSeen
  session_none : ∀ {a b}, R a b → a.session? = none → b.session? = none
  session_some : ∀ {a b s}, R a b → a.session? = some s →
    ∃ t, b.session? = some t ∧ t.key = s.key ∧ ∀ reason, t.summary reason = s.summary reason

/-- Two turns that end alike. -/
structure Lifecycle.Turn.Alike (counts : Notice → Bool) (u v : Lifecycle.Turn) : Prop where
  done_eq : v.done = u.done
  counters_eq : v.counters = u.counters
  notices_eq : v.notices.filter counts = u.notices.filter counts

namespace Pool

/-- Two pools that look the same, up to `R` in the slots and to notices that do not count. -/
structure Alike (R : Slot → Slot → Prop) (counts : Notice → Bool) (p q : Pool) : Prop where
  config_eq : q.config = p.config
  registry_eq : q.registry = p.registry
  active_eq : q.active = p.active
  free_eq : q.free = p.free
  generation_eq : q.generation = p.generation
  watermark_eq : q.watermark = p.watermark
  counters_eq : q.counters = p.counters
  journal_eq : q.journal.toList.filter counts = p.journal.toList.filter counts
  size_eq : q.slots.size = p.slots.size
  slots : ∀ (i : Nat) (a : Slot), p.slots[i]? = some a → ∃ b, q.slots[i]? = some b ∧ R a b

namespace Alike

variable {R : Slot → Slot → Prop} {counts : Notice → Bool} {p q : Pool} {i : Nat} {a b : Slot}
  {s t : Session}

theorem new (config : Config) (registry : Registry) :
    Alike R counts (.new config registry) (.new config registry) :=
  ⟨rfl, rfl, rfl, rfl, rfl, rfl, rfl, rfl, rfl, fun i a ha => absurd ha (by simp [Pool.new])⟩

/-! ## Looking into a slot -/

theorem slot_none (h : Alike R counts p q) (hi : p.slots[i]? = none) : q.slots[i]? = none := by
  rw [Array.getElem?_eq_none_iff] at hi ⊢
  rw [h.size_eq]
  exact hi

theorem occupant_some (h : Alike R counts p q) (hR : Slot.Likeness R)
    (ho : p.occupant i = some (a, s)) :
    ∃ b t, q.occupant i = some (b, t) ∧ R a b ∧ b.generation = a.generation ∧ t.key = s.key ∧
      ∀ reason, t.summary reason = s.summary reason := by
  obtain ⟨hs, hp⟩ := occupant_eq_some.mp ho
  obtain ⟨b, hb, hab⟩ := h.slots i a hs
  obtain ⟨t, ht, hkey, hsummary⟩ := hR.session_some hab (Slot.session?_eq_some.mpr hp)
  exact ⟨b, t, occupant_eq_some.mpr ⟨hb, Slot.session?_eq_some.mp ht⟩, hab, (hR.frame hab).1, hkey,
    hsummary⟩

theorem occupant_none (h : Alike R counts p q) (hR : Slot.Likeness R)
    (ho : p.occupant i = none) : q.occupant i = none := by
  refine occupant_eq_none.mpr fun b hb => ?_
  rcases hs : p.slots[i]? with _ | a
  · exact absurd ((h.slot_none hs).symm.trans hb) (by simp)
  · obtain ⟨b', hb', hab⟩ := h.slots i a hs
    obtain rfl := Option.some.inj (hb'.symm.trans hb)
    exact hR.session_none hab (occupant_eq_none.mp ho a hs)

theorem handleOf_eq (h : Alike R counts p q) (hR : Slot.Likeness R) (i : Nat) :
    q.handleOf i = p.handleOf i := by
  rcases ho : p.occupant i with _ | ⟨a, s⟩
  · have hnone : ∀ r : Pool, r.occupant i = none → r.handleOf i = none := by
      intro r hr
      refine Option.eq_none_iff_forall_ne_some.mpr fun handle hh => ?_
      obtain ⟨slot, session, ho, -⟩ := handleOf_eq_some.mp hh
      exact absurd (hr.symm.trans ho) (by simp)
    rw [hnone p ho, hnone q (h.occupant_none hR ho)]
  · obtain ⟨b, t, hb, -, hgen, hkey, -⟩ := h.occupant_some hR ho
    rw [handleOf_of_occupant ho, handleOf_of_occupant hb, hgen, hkey]

theorem isOpen_eq (hR : Slot.Likeness R) (hab : R a b) : b.isOpen = a.isOpen := by
  unfold Slot.isOpen
  rcases ha : a.session? with _ | s
  · rw [hR.session_none hab ha]
  · obtain ⟨t, ht, -⟩ := hR.session_some hab ha
    rw [ht]
    rfl

theorem accept_eq (h : Alike R counts p q) (hR : Slot.Likeness R) (handle : Handle) :
    q.accept handle = p.accept handle := by
  unfold accept
  rcases hs : p.slots[handle.slot]? with _ | a
  · rw [h.slot_none hs]
  · obtain ⟨b, hb, hab⟩ := h.slots handle.slot a hs
    rw [hb]
    dsimp only
    rw [(hR.frame hab).1, isOpen_eq hR hab]

theorem slotOf_eq (h : Alike R counts p q) (key : Flow) : q.slotOf key = p.slotOf key := by
  unfold slotOf
  rw [h.active_eq]

/-! ## The parts of a step -/

theorem raised (h : Alike R counts p q) (now : Instant) :
    Alike R counts (p.raised now) (q.raised now) :=
  ⟨h.config_eq, h.registry_eq, h.active_eq, h.free_eq, h.generation_eq,
    congrArg (Watermark.raise · now) h.watermark_eq, h.counters_eq, h.journal_eq, h.size_eq, h.slots⟩

/-- Slots put in the same place of both. -/
theorem slots_replaced (h : Alike R counts p q) {xs ys : Array Slot} (hab : R a b)
    (hx : ∀ j : Nat, xs[j]? = if i = j then some a else p.slots[j]?)
    (hy : ∀ j : Nat, ys[j]? = if i = j then some b else q.slots[j]?) :
    ∀ (j : Nat) (c : Slot), xs[j]? = some c → ∃ d, ys[j]? = some d ∧ R c d := by
  intro j c hc
  rw [hx] at hc
  rw [hy]
  by_cases hij : i = j
  · rw [if_pos hij] at hc ⊢
    obtain rfl := Option.some.inj hc
    exact ⟨b, rfl, hab⟩
  · rw [if_neg hij] at hc ⊢
    exact h.slots j c hc

theorem stocked (h : Alike R counts p q) (hR : Slot.Likeness R) :
    Alike R counts p.stocked q.stocked := by
  have hgrowth : q.growth = p.growth := by
    unfold growth
    rw [h.size_eq, h.config_eq]
  unfold Pool.stocked
  rw [h.free_eq]
  split_ifs
  · refine ⟨h.config_eq, h.registry_eq, h.active_eq, ?_, h.generation_eq, h.watermark_eq,
      h.counters_eq, ?_, ?_, fun j c hc => ?_⟩
    · unfold grow note
      dsimp only
      rw [h.size_eq, hgrowth, h.free_eq]
    · unfold grow note
      dsimp only
      rw [Array.toList_append, Array.toList_append, List.filter_append, List.filter_append,
        h.journal_eq, h.size_eq, hgrowth]
    · unfold grow note
      dsimp only
      rw [Array.size_append, Array.size_append, Array.size_replicate, Array.size_replicate, h.size_eq,
        hgrowth]
    · rw [slots_grow] at hc
      rw [slots_grow, h.size_eq, hgrowth, h.config_eq]
      split_ifs at hc ⊢
      · obtain rfl := Option.some.inj hc
        exact ⟨_, rfl, hR.fresh _⟩
      · exact h.slots j c hc
  · exact h

/-- The same session opened in the same slot. -/
theorem openAt (h : Alike R counts p q) (hR : Slot.Likeness R) (hs : p.slots[i]? = some a)
    (free : List Nat) (key : Flow) (now : Instant) :
    Alike R counts (p.openAt i free key now).1 (q.openAt i free key now).1 := by
  obtain ⟨b, hb, hab⟩ := h.slots i a hs
  obtain ⟨hpc, hpr, hpn, hpf, hpg, hpa, hps⟩ := openAt_frame (p := p) (i := i) free key now
  obtain ⟨hqc, hqr, hqn, hqf, hqg, hqa, hqs⟩ := openAt_frame (p := q) (i := i) free key now
  have hwatermark : ∀ r : Pool, (r.openAt i free key now).1.watermark = r.watermark := by
    intro r
    unfold Pool.openAt
    dsimp only
    split_ifs <;> rfl
  have hfigures : ∀ n : Nat, ({ q with free := free, generation := n } : Pool).figures =
      ({ p with free := free, generation := n } : Pool).figures := by
    intro n
    unfold figures
    dsimp only
    rw [h.size_eq, h.active_eq]
  -- The statistics line, where one is due, is the same: it tells the figures and the generation.
  refine ⟨?_, ?_, ?_, ?_, ?_, ?_, ?_, ?_, ?_, ?_⟩
  · rw [hqc, hpc, h.config_eq]
  · rw [hqr, hpr, h.registry_eq]
  · rw [hqa, hpa, h.active_eq]
  · rw [hqf, hpf]
  · rw [hqg, hpg, h.generation_eq]
  · rw [hwatermark, hwatermark, h.watermark_eq]
  · rw [hqn, hpn, h.counters_eq]
  · unfold Pool.openAt note
    dsimp only
    rw [h.generation_eq, hfigures]
    split_ifs
    · dsimp only
      rw [Array.toList_append, Array.toList_append, List.filter_append, List.filter_append,
        h.journal_eq]
    · exact h.journal_eq
  · rw [hqs, hps, Array.size_modify, Array.size_modify, h.size_eq]
  · refine h.slots_replaced (hR.openWith hab key now (p.generation + 1))
      (slots_openAt hs free key now) fun j => ?_
    rw [slots_openAt hb free key now, h.generation_eq]

/-- Turns that end alike, in the same slot of both. -/
theorem afterTurn (h : Alike R counts p q) (ho : p.occupant i = some (a, s))
    (hq : q.occupant i = some (b, t)) {u v : Lifecycle.Turn} {input input' : Lifecycle.Input}
    (hturn : u.Alike counts v) (hslot : R (a.turned u input) (b.turned v input')) :
    Alike R counts (p.afterTurn i a u input) (q.afterTurn i b v input') := by
  refine ⟨h.config_eq, h.registry_eq, h.active_eq, h.free_eq, h.generation_eq, h.watermark_eq,
    hturn.counters_eq, ?_, ?_, ?_⟩
  · unfold Pool.afterTurn
    dsimp only
    rw [Array.toList_append, Array.toList_append, List.filter_append, List.filter_append,
      h.journal_eq, hturn.notices_eq]
  · unfold Pool.afterTurn
    dsimp only
    rw [Array.size_setIfInBounds, Array.size_setIfInBounds, h.size_eq]
  · exact h.slots_replaced hslot (slots_afterTurn (lt_size ho) a u input)
      (slots_afterTurn (lt_size hq) b v input')

/-- A turn of which nothing shows, on one side alone. -/
theorem stutter (h : Alike R counts p q) (ho : p.occupant i = some (a, s))
    (hq : q.occupant i = some (b, t)) {u : Lifecycle.Turn} {input : Lifecycle.Input}
    (hcounters : u.counters = p.counters) (hnotices : u.notices.filter counts = [])
    (hslot : R (a.turned u input) b) : Alike R counts (p.afterTurn i a u input) q := by
  refine ⟨h.config_eq, h.registry_eq, h.active_eq, h.free_eq, h.generation_eq, h.watermark_eq,
    h.counters_eq.trans hcounters.symm, ?_, ?_, ?_⟩
  · unfold Pool.afterTurn
    dsimp only
    rw [Array.toList_append, List.filter_append, hnotices, List.append_nil]
    exact h.journal_eq
  · unfold Pool.afterTurn
    dsimp only
    rw [Array.size_setIfInBounds, h.size_eq]
  · refine h.slots_replaced hslot (slots_afterTurn (lt_size ho) a u input) fun j => ?_
    split_ifs with hij
    · rw [← hij]
      exact (occupant_eq_some.mp hq).1
    · rfl

theorem retire (h : Alike R counts p q) (hR : Slot.Likeness R) (ho : p.occupant i = some (a, s))
    (hq : q.occupant i = some (b, t)) (hab : R a b) (hkey : t.key = s.key) {reason : CloseReason}
    (hsummary : t.summary reason = s.summary reason) :
    Alike R counts (p.retire i a s reason) (q.retire i b t reason) := by
  refine ⟨h.config_eq, h.registry_eq, ?_, ?_, h.generation_eq, h.watermark_eq, h.counters_eq, ?_, ?_,
    ?_⟩
  · unfold Pool.retire
    dsimp only
    rw [hkey, h.active_eq]
  · unfold Pool.retire
    dsimp only
    rw [h.free_eq]
  · unfold Pool.retire
    dsimp only
    rw [Array.toList_append, Array.toList_append, List.filter_append, List.filter_append,
      h.journal_eq, hsummary]
  · unfold Pool.retire
    dsimp only
    rw [Array.size_setIfInBounds, Array.size_setIfInBounds, h.size_eq]
  · exact h.slots_replaced (hR.vacated hab) (slots_retire (lt_size ho) a s reason)
      (slots_retire (lt_size hq) b t reason)

/-! ## Steps -/

/-- A connection is resolved to the same handle. -/
theorem resolve (h : Alike R counts p q) (hR : Slot.Likeness R) (hp : p.Consistent) (key : Flow)
    (isOpening isEnding : Bool) (now : Instant) :
    Alike R counts (p.resolve key isOpening isEnding now).1
        (q.resolve key isOpening isEnding now).1 ∧
      (q.resolve key isOpening isEnding now).2 = (p.resolve key isOpening isEnding now).2 := by
  have hslot := h.slotOf_eq key
  have hraised := h.raised now
  rcases hk : p.slotOf key with _ | i
  · rw [hk] at hslot
    by_cases hopen : (isOpening && !isEnding) = true
    · have hstocked := hraised.stocked hR
      rw [resolve_of_opening hk hopen, resolve_of_opening hslot hopen, hstocked.free_eq]
      rcases hcase : (p.raised now).stocked.free with _ | ⟨i, free⟩
      · exact ⟨hstocked, rfl⟩
      · obtain ⟨slot, hs, -⟩ := (hp.raised now).stocked.idle i (hcase ▸ List.mem_cons_self)
        dsimp only
        rw [openAt_handle, openAt_handle, hstocked.generation_eq]
        exact ⟨hstocked.openAt hR hs free key now, rfl⟩
    · have hclosed := Bool.eq_false_iff.mpr hopen
      rw [resolve_of_refused hk hclosed, resolve_of_refused hslot hclosed]
      exact ⟨hraised, rfl⟩
  · rw [hk] at hslot
    rw [resolve_of_mapped hk, resolve_of_mapped hslot]
    exact ⟨hraised, h.handleOf_eq hR i⟩

/-- Both sessions in a slot take an input, and their turns end alike. -/
theorem attend (h : Alike R counts p q) (hR : Slot.Likeness R) (hp : p.Consistent)
    (hq : q.Consistent) (ho : p.occupant i = some (a, s)) (hb : q.occupant i = some (b, t))
    {input input' : Lifecycle.Input} (hf : input.isFor s = true) (hf' : input'.isFor t = true)
    (hreason : input'.reason = input.reason)
    (hturn : (p.turnOf a s input).Alike counts (q.turnOf b t input'))
    (hslot : R (a.turned (p.turnOf a s input) input) (b.turned (q.turnOf b t input') input')) :
    Alike R counts (p.attend i input) (q.attend i input') := by
  have hafter := h.afterTurn ho hb hturn hslot
  rw [hp.attend_eq ho hf, hq.attend_eq hb hf']
  dsimp only
  rw [hturn.done_eq, hreason]
  split_ifs
  · -- The summaries are of the sessions after the turn, and those look the same again.
    have ho' := occupant_afterTurn_self ho (p.turnOf a s input) input
    have hb' := occupant_afterTurn_self hb (q.turnOf b t input') input'
    obtain ⟨c, r, hc, -, -, hkey, hsummary⟩ := hafter.occupant_some hR ho'
    obtain ⟨rfl, rfl⟩ := occupant_unique hb' hc
    exact hafter.retire hR ho' hb' hslot hkey (hsummary _)
  · exact hafter

theorem close (h : Alike R counts p q) (hR : Slot.Likeness R) (hp : p.Consistent)
    (hq : q.Consistent) (i generation : Nat) (reason : CloseReason) :
    Alike R counts (p.close i generation reason) (q.close i generation reason) := by
  by_cases hg : ∃ a s, p.occupant i = some (a, s) ∧ a.generation = generation
  · obtain ⟨a, s, ho, rfl⟩ := hg
    obtain ⟨b, t, hb, hab, hgen, hkey, hsummary⟩ := h.occupant_some hR ho
    have hclose := hq.close_eq hb reason
    rw [hgen] at hclose
    rw [hp.close_eq ho, hclose]
    exact h.retire hR ho hb hab hkey (hsummary reason)
  · -- Then the request is for an earlier session of the slot, on both sides.
    have hother : ∀ a s, p.occupant i = some (a, s) → a.generation ≠ generation :=
      fun a s ho he => hg ⟨a, s, ho, he⟩
    have hother' : ∀ b t, q.occupant i = some (b, t) → b.generation ≠ generation := by
      intro b t hb
      rcases ho : p.occupant i with _ | ⟨a, s⟩
      · exact absurd ((h.occupant_none hR ho).symm.trans hb) (by simp)
      · obtain ⟨c, r, hc, -, hgen, -⟩ := h.occupant_some hR ho
        obtain ⟨rfl, -⟩ := occupant_unique hc hb
        rw [hgen]
        exact hother a s ho
    rw [close_eq_self reason hother, close_eq_self reason hother']
    exact h

/-! ## Flushing -/

/-- A flush that goes by the last activity selects the same sessions. -/
theorem selected_eq (h : Alike R counts p q) (hR : Slot.Likeness R) {select : Slot → Bool}
    (hselect : ∀ a b, R a b → select b = select a) : q.selected select = p.selected select := by
  unfold selected
  rw [h.active_eq]
  apply List.filterMap_congr
  rintro ⟨key, i⟩ -
  dsimp only
  rcases hs : p.slots[i]? with _ | a
  · rw [h.slot_none hs]
  · obtain ⟨b, hb, hab⟩ := h.slots i a hs
    obtain ⟨-, howner, -⟩ := hR.frame hab
    rw [hb]
    simp only [Option.bind_eq_bind, Option.bind_some, howner, isOpen_eq hR hab, hselect a b hab]

end Alike

end Pool

end FlowWatch
