/-
Handles that come too late.

A handle names a slot and a generation, and it outlives both: the session ends, the slot is given to
the next one, and the handle is still in somebody's hands. Whether it is good is decided from the slot
alone, by comparing generations and by looking whether a session is open. This file says what the
comparison means in the history of the pool: `Accounted` ties the generation that a slot shows to the
handles that were given out, and no step breaks the tie, because a slot changes its generation only
when a session is opened in it, and then a handle is given out for it.

A handle that is refused changes nothing. One that is accepted hands its segment to its own session,
and all that changes is that session (`Heard`) and its slot (`OnlyTouches`).
-/
import FlowWatch.Proofs.Pool.Recycling
import FlowWatch.Proofs.Tracker.Isolation

set_option autoImplicit false

namespace FlowWatch

namespace Pool

/-- The handle a step gives out: that of the session a segment finds or opens. -/
def given? (p : Pool) : PoolStep → Option Handle
  | .resolve key isOpening isEnding now => (p.resolve key isOpening isEnding now).2
  | _ => none

/-- The handles given out during a list of steps. -/
def handedOut (p : Pool) : List PoolStep → List Handle
  | [] => []
  | s :: ss => (p.given? s).toList ++ (p.step s).handedOut ss

/-- After the handle a later session was opened in its slot. -/
def Superseded (given : List Handle) (h : Handle) : Prop :=
  ∃ later ∈ given, later.slot = h.slot ∧ h.generation < later.generation

/-- The slots show what was given out: no handle is ahead of its slot or of the pool, the newest
generation of a slot has a handle, and the handles of an open session carry its key. -/
structure Accounted (p : Pool) (given : List Handle) : Prop where
  placed : ∀ h ∈ given, ∃ slot, p.slots[h.slot]? = some slot ∧ h.generation ≤ slot.generation
  newest : ∀ (i : Nat) (slot : Slot), p.slots[i]? = some slot → slot.generation ≠ 0 →
    ∃ h ∈ given, h.slot = i ∧ h.generation = slot.generation
  keyed : ∀ h ∈ given, ∀ (slot : Slot) (session : Session),
    p.occupant h.slot = some (slot, session) → slot.generation = h.generation →
      session.key = h.key
  issued : ∀ h ∈ given, h.generation ≤ p.generation

/-- From `p` to `q` no slot is given to another session: old slots show the generation they have
shown, new ones show none, and who is in a slot was there before. The pool may go on counting its
generations, but it never goes back. -/
structure Unchanged (p q : Pool) : Prop where
  kept : ∀ (i : Nat) (slot : Slot), p.slots[i]? = some slot →
    ∃ slot', q.slots[i]? = some slot' ∧ slot'.generation = slot.generation
  fresh : ∀ (i : Nat) (slot' : Slot), p.slots[i]? = none → q.slots[i]? = some slot' →
    slot'.generation = 0
  stayed : ∀ (i : Nat) (slot' : Slot) (session' : Session),
    q.occupant i = some (slot', session') →
      ∃ slot session, p.occupant i = some (slot, session) ∧ session.key = session'.key
  later : p.generation ≤ q.generation

variable {p q : Pool} {given : List Handle} {h : Handle} {i : Nat} {slot : Slot} {session : Session}

/-! ## Steps that open nothing -/

namespace Unchanged

theorem of_slots (hslots : q.slots = p.slots) (hgen : q.generation = p.generation) :
    p.Unchanged q where
  kept := by
    intro i slot hs
    exact ⟨slot, by rw [hslots]; exact hs, rfl⟩
  fresh := by
    intro i slot' hnone hs
    rw [hslots, hnone] at hs
    exact absurd hs (by simp)
  stayed := by
    intro i slot' session' ho
    rw [occupant_of_slots (p := p) (by rw [hslots])] at ho
    exact ⟨slot', session', ho, rfl⟩
  later := Nat.le_of_eq hgen.symm

theorem stocked : p.Unchanged p.stocked := by
  unfold Pool.stocked
  split_ifs
  · refine ⟨?_, ?_, ?_, Nat.le_refl _⟩
    · intro i slot hs
      have hlt := (Array.getElem?_eq_some_iff.mp hs).1
      refine ⟨slot, ?_, rfl⟩
      rw [slots_grow, if_neg (by omega), hs]
    · intro i slot' hnone hs
      rw [slots_grow] at hs
      split_ifs at hs
      · rw [← Option.some.inj hs]
        rfl
      · rw [hnone] at hs
        exact absurd hs (by simp)
    · intro i slot' session' ho
      rw [occupant_grow] at ho
      exact ⟨slot', session', ho, rfl⟩
  · exact of_slots rfl rfl

/-- A slot put in the place of another of its generation. -/
theorem of_replaced {a : Slot} (hs : p.slots[i]? = some slot)
    (hq : ∀ j, q.slots[j]? = if i = j then some a else p.slots[j]?)
    (hgen : a.generation = slot.generation) (hlater : q.generation = p.generation)
    (hstayed : ∀ (j : Nat) (slot' : Slot) (session' : Session),
      q.occupant j = some (slot', session') →
        ∃ slot session, p.occupant j = some (slot, session) ∧ session.key = session'.key) :
    p.Unchanged q where
  kept := by
    intro j b hb
    rw [hq]
    by_cases hij : i = j
    · subst hij
      rw [if_pos rfl]
      exact ⟨a, rfl, by rw [hgen, Option.some.inj (hs.symm.trans hb)]⟩
    · rw [if_neg hij]
      exact ⟨b, hb, rfl⟩
  fresh := by
    intro j b hnone hb
    rw [hq] at hb
    split_ifs at hb with hij
    · subst hij
      rw [hs] at hnone
      exact absurd hnone (by simp)
    · rw [hnone] at hb
      exact absurd hb (by simp)
  stayed := hstayed
  later := Nat.le_of_eq hlater.symm

theorem afterTurn (ho : p.occupant i = some (slot, session)) {turn : Lifecycle.Turn}
    (hkey : turn.next.session.key = session.key) (input : Lifecycle.Input) :
    p.Unchanged (p.afterTurn i slot turn input) := by
  have hslots := slots_afterTurn (lt_size ho) slot turn input
  refine of_replaced (occupant_eq_some.mp ho).1 hslots rfl rfl ?_
  intro j slot' session' hj
  rw [occupant_afterTurn ho] at hj
  split_ifs at hj with hij
  · subst hij
    obtain ⟨-, rfl⟩ := Prod.mk.inj (Option.some.inj hj)
    exact ⟨slot, session, ho, hkey.symm⟩
  · exact ⟨slot', session', hj, rfl⟩

theorem retire (ho : p.occupant i = some (slot, session)) (reason : CloseReason) :
    p.Unchanged (p.retire i slot session reason) := by
  have hslots := slots_retire (lt_size ho) slot session reason
  refine of_replaced (occupant_eq_some.mp ho).1 hslots rfl rfl ?_
  intro j slot' session' hj
  rw [occupant_retire ho] at hj
  split_ifs at hj
  exact ⟨slot', session', hj, rfl⟩

theorem trans {r : Pool} (hpq : p.Unchanged q) (hqr : q.Unchanged r) : p.Unchanged r where
  kept := by
    intro i slot hs
    obtain ⟨slot', hs', hgen⟩ := hpq.kept i slot hs
    obtain ⟨slot'', hs'', hgen'⟩ := hqr.kept i slot' hs'
    exact ⟨slot'', hs'', hgen'.trans hgen⟩
  fresh := by
    intro i slot'' hnone hs''
    rcases hs' : q.slots[i]? with _ | slot'
    · exact hqr.fresh i slot'' hs' hs''
    · obtain ⟨a, ha, hgen⟩ := hqr.kept i slot' hs'
      rw [Option.some.inj (hs''.symm.trans ha), hgen]
      exact hpq.fresh i slot' hnone hs'
  stayed := by
    intro i slot'' session'' ho''
    obtain ⟨slot', session', ho', hkey'⟩ := hqr.stayed i slot'' session'' ho''
    obtain ⟨slot, session, ho, hkey⟩ := hpq.stayed i slot' session' ho'
    exact ⟨slot, session, ho, hkey.trans hkey'⟩
  later := hpq.later.trans hqr.later

end Unchanged

namespace Accounted

theorem new (config : Config) (registry : Registry) : Accounted (.new config registry) [] where
  placed := fun h hh => absurd hh List.not_mem_nil
  newest := fun i slot hs => absurd hs (by simp [Pool.new])
  keyed := fun h hh => absurd hh List.not_mem_nil
  issued := fun h hh => absurd hh List.not_mem_nil

theorem unchanged (ha : p.Accounted given) (hq : p.Unchanged q) : q.Accounted given where
  placed := by
    intro h hh
    obtain ⟨slot, hs, hle⟩ := ha.placed h hh
    obtain ⟨slot', hs', hgen⟩ := hq.kept h.slot slot hs
    exact ⟨slot', hs', by omega⟩
  newest := by
    intro i slot' hs' hpos
    rcases hs : p.slots[i]? with _ | slot
    · exact absurd (hq.fresh i slot' hs hs') hpos
    · obtain ⟨a, ha', hgen⟩ := hq.kept i slot hs
      obtain rfl := Option.some.inj (hs'.symm.trans ha')
      rw [hgen] at hpos ⊢
      exact ha.newest i slot hs hpos
  keyed := by
    intro h hh slot' session' ho' hgen'
    obtain ⟨slot, session, ho, hkey⟩ := hq.stayed h.slot slot' session' ho'
    obtain ⟨a, ha', hgen⟩ := hq.kept h.slot slot (occupant_eq_some.mp ho).1
    obtain rfl := Option.some.inj ((occupant_eq_some.mp ho').1.symm.trans ha')
    rw [← hkey]
    exact ha.keyed h hh slot session ho (by omega)
  issued := fun h hh => (ha.issued h hh).trans hq.later

/-- A handle of a session that is open. -/
theorem found (ha : p.Accounted given) (ho : p.occupant i = some (slot, session))
    (hle : slot.generation ≤ p.generation) :
    p.Accounted (given ++ [⟨i, slot.generation, session.key⟩]) where
  placed := by
    refine List.forall_mem_append.mpr ⟨ha.placed, List.forall_mem_singleton.mpr ?_⟩
    exact ⟨slot, (occupant_eq_some.mp ho).1, Nat.le_refl _⟩
  newest := by
    intro j a has hpos
    obtain ⟨h, hh, hslot, hgen⟩ := ha.newest j a has hpos
    exact ⟨h, List.mem_append_left _ hh, hslot, hgen⟩
  keyed := by
    refine List.forall_mem_append.mpr ⟨ha.keyed, List.forall_mem_singleton.mpr ?_⟩
    intro a s hocc _
    exact congrArg Session.key (occupant_unique hocc ho).2
  issued := List.forall_mem_append.mpr ⟨ha.issued, List.forall_mem_singleton.mpr hle⟩

/-- A handle of a session that has just been opened. Every other handle of the slot is behind it. -/
theorem opened (ha : p.Accounted given) (hs : p.slots[i]? = some slot) (free : List Nat)
    (key : Flow) (now : Instant) :
    (p.openAt i free key now).1.Accounted (given ++ [⟨i, p.generation + 1, key⟩]) where
  placed := by
    intro h hh
    rw [slots_openAt hs]
    by_cases hi : i = h.slot
    · rw [if_pos hi]
      refine ⟨_, rfl, ?_⟩
      show h.generation ≤ p.generation + 1
      rcases List.mem_append.mp hh with hold | hnew
      · exact Nat.le_succ_of_le (ha.issued h hold)
      · rw [List.mem_singleton.mp hnew]
    · rw [if_neg hi]
      rcases List.mem_append.mp hh with hold | hnew
      · exact ha.placed h hold
      · rw [List.mem_singleton.mp hnew] at hi
        exact absurd rfl hi
  newest := by
    intro j a has hpos
    rw [slots_openAt hs] at has
    split_ifs at has with hij
    · rw [← Option.some.inj has]
      exact ⟨_, List.mem_append_right _ (List.mem_singleton_self _), hij, rfl⟩
    · obtain ⟨h, hh, hslot, hgen⟩ := ha.newest j a has hpos
      exact ⟨h, List.mem_append_left _ hh, hslot, hgen⟩
  keyed := by
    intro h hh a s hocc hgen
    rw [occupant_openAt hs] at hocc
    split_ifs at hocc with hij
    · obtain ⟨rfl, rfl⟩ := Prod.mk.inj (Option.some.inj hocc)
      have hnewest : p.generation + 1 = h.generation := hgen
      rcases List.mem_append.mp hh with hold | hnew
      · have := ha.issued h hold
        omega
      · rw [List.mem_singleton.mp hnew]
        rfl
    · rcases List.mem_append.mp hh with hold | hnew
      · exact ha.keyed h hold a s hocc hgen
      · rw [List.mem_singleton.mp hnew] at hij
        exact absurd rfl hij
  issued := by
    rw [(openAt_frame free key now).2.2.2.2.1]
    refine List.forall_mem_append.mpr ⟨?_, List.forall_mem_singleton.mpr (Nat.le_refl _)⟩
    intro h hh
    exact Nat.le_succ_of_le (ha.issued h hh)

/-! ## Steps and runs -/

theorem resolve (ha : p.Accounted given) (hp : p.Consistent) (key : Flow)
    (isOpening isEnding : Bool) (now : Instant) :
    (p.resolve key isOpening isEnding now).1.Accounted
      (given ++ (p.resolve key isOpening isEnding now).2.toList) := by
  have hraised : (p.raised now).Accounted given := ha.unchanged (.of_slots rfl rfl)
  rcases hk : p.slotOf key with _ | i
  · by_cases hopen : (isOpening && !isEnding) = true
    · rw [resolve_of_opening hk hopen]
      have hstocked := hraised.unchanged .stocked
      rcases hfree : (p.raised now).stocked.free with _ | ⟨i, free⟩
      · rw [Option.toList_none, List.append_nil]
        exact hstocked
      · obtain ⟨slot, hs, -⟩ := (hp.raised now).stocked.idle i (hfree ▸ List.mem_cons_self)
        show Accounted _ (given ++ Option.toList (Pool.openAt _ i free key now).2)
        rw [openAt_handle]
        exact hstocked.opened hs free key now
    · rw [resolve_of_refused hk (Bool.eq_false_iff.mpr hopen), Option.toList_none, List.append_nil]
      exact hraised
  · obtain ⟨slot, session, ho, -⟩ := hp.slotOf_eq_some.mp hk
    rw [resolve_of_mapped hk, handleOf_of_occupant ho]
    exact hraised.found ho (hp.of_occupant ho).2.1

theorem step (ha : p.Accounted given) (hp : p.Consistent) (s : PoolStep) :
    (p.step s).Accounted (given ++ (p.given? s).toList) := by
  cases s with
  | resolve key isOpening isEnding now => exact ha.resolve hp key isOpening isEnding now
  | attend i input =>
    show Accounted _ (given ++ [])
    rw [List.append_nil]
    apply ha.unchanged
    have hmove := hp.move_attend i input
    generalize p.step (.attend i input) = q at hmove ⊢
    cases hmove with
    | still => exact .of_slots rfl rfl
    | turned ho => exact .afterTurn ho (Lifecycle.key_turn _ _ _ _ input) input
    | finished ho =>
      exact (Unchanged.afterTurn ho (Lifecycle.key_turn _ _ _ _ input) input).trans
        (.retire (occupant_afterTurn_self ho _ _) _)
  | close i generation reason =>
    show Accounted _ (given ++ [])
    rw [List.append_nil]
    apply ha.unchanged
    have hmove := hp.move_close i generation reason
    generalize p.step (.close i generation reason) = q at hmove ⊢
    cases hmove with
    | still => exact .of_slots rfl rfl
    | closed ho => exact .retire ho _

theorem steps (ha : p.Accounted given) (hp : p.Consistent) (ss : List PoolStep) :
    (p.steps ss).Accounted (given ++ p.handedOut ss) := by
  induction ss generalizing p given with
  | nil =>
    show Accounted p (given ++ [])
    rw [List.append_nil]
    exact ha
  | cons s ss ih =>
    rw [steps_cons, handedOut, ← List.append_assoc]
    exact ih (ha.step hp s) (hp.step s)

end Accounted

/-! ## Answers -/

/-- The answer to a handle is the one it should be: yes if its session is open, a refusal as closed if
the session is over and the slot is empty, and a refusal as stale if the slot was used again. -/
structure Answered (p : Pool) (given : List Handle) (h : Handle)
    (answer : Except HandleRefusal Unit) : Prop where
  ok_iff : answer = .ok () ↔ p.handleOf h.slot = some h
  closed_iff : answer = .error .closed ↔ p.handleOf h.slot = none ∧ ¬Superseded given h
  stale_iff : answer = .error .stale ↔ Superseded given h

theorem submit_answer (p : Pool) (h : Handle) (s : Segment) : (p.submit h s).2 = p.accept h := by
  unfold submit
  rcases p.accept h with e | _ <;> rfl

theorem closeBy_answer (p : Pool) (h : Handle) (reason : CloseReason) :
    (p.closeBy h reason).2 = p.accept h := by
  unfold closeBy
  rcases p.accept h with e | _ <;> rfl

theorem submit_of_refused {s : Segment} (hr : (p.submit h s).2 ≠ .ok ()) : (p.submit h s).1 = p := by
  rw [submit_answer] at hr
  unfold submit
  rcases ha : p.accept h with e | _
  · rfl
  · exact absurd ha hr

theorem closeBy_of_refused {reason : CloseReason} (hr : (p.closeBy h reason).2 ≠ .ok ()) :
    (p.closeBy h reason).1 = p := by
  rw [closeBy_answer] at hr
  unfold closeBy
  rcases ha : p.accept h with e | _
  · rfl
  · exact absurd ha hr

theorem submit_of_accepted {s : Segment} (hs : (p.submit h s).2 = .ok ()) :
    (p.submit h s).1 = p.attend h.slot (.segment s) := by
  rw [submit_answer] at hs
  unfold submit
  rw [hs]
  rfl

/-- A handle ahead of which the slot shows nothing: its own session is the last of the slot. -/
theorem Accounted.answered_of_newest (ha : p.Accounted given) (hh : h ∈ given)
    (hs : p.slots[h.slot]? = some slot) (hgen : slot.generation = h.generation) :
    Answered p given h (p.accept h) := by
  have hlast : ¬Superseded given h := by
    rintro ⟨later, hlater, hslot, hlt⟩
    obtain ⟨a, has, hle⟩ := ha.placed later hlater
    rw [hslot] at has
    obtain rfl := Option.some.inj (hs.symm.trans has)
    omega
  have haccept : p.accept h = if slot.isOpen then .ok () else .error .closed := by
    unfold accept
    rw [hs]
    exact if_neg (not_not_intro hgen)
  rcases hsession : slot.session? with _ | session
  · -- The slot is empty, so the session of the handle is over.
    have hnone : p.handleOf h.slot = none := by
      unfold handleOf
      rw [hs]
      simp [hsession]
    have hclosed : slot.isOpen = false := by rw [Slot.isOpen, hsession]; rfl
    rw [haccept, hclosed, if_neg Bool.false_ne_true]
    exact ⟨by simp [hnone], by simp [hnone, hlast], by simp [hlast]⟩
  · have ho : p.occupant h.slot = some (slot, session) :=
      occupant_eq_some.mpr ⟨hs, Slot.session?_eq_some.mp hsession⟩
    have hsome : p.handleOf h.slot = some h := by
      rw [handleOf_of_occupant ho, hgen, ha.keyed h hh slot session ho hgen]
    rw [haccept, isOpen_of_occupant ho, if_pos rfl]
    exact ⟨by simp [hsome], by simp [hsome], by simp [hlast]⟩

/-- A handle that is behind its slot. -/
theorem Accounted.answered_of_older (ha : p.Accounted given) (hs : p.slots[h.slot]? = some slot)
    (hlt : h.generation < slot.generation) : Answered p given h (p.accept h) := by
  have hbehind : Superseded given h := by
    obtain ⟨later, hlater, hslot, hgen⟩ := ha.newest h.slot slot hs (by omega)
    exact ⟨later, hlater, hslot, by omega⟩
  have hother : p.handleOf h.slot ≠ some h := by
    intro hsome
    obtain ⟨a, session, ho, heq⟩ := handleOf_eq_some.mp hsome
    obtain rfl := Option.some.inj (hs.symm.trans (occupant_eq_some.mp ho).1)
    have hgen : h.generation = slot.generation := congrArg Handle.generation heq
    omega
  have haccept : p.accept h = .error .stale := by
    unfold accept
    rw [hs]
    exact if_pos (Nat.ne_of_gt hlt)
  rw [haccept]
  exact ⟨by simp [hother], by simp [hbehind], by simp [hbehind]⟩

/-- **Every handle that was given out gets the right answer.** -/
theorem Accounted.answered (ha : p.Accounted given) (hh : h ∈ given) :
    Answered p given h (p.accept h) := by
  obtain ⟨slot, hs, hle⟩ := ha.placed h hh
  by_cases hgen : slot.generation = h.generation
  · exact ha.answered_of_newest hh hs hgen
  · exact ha.answered_of_older hs (by omega)

/-! ## Segments that are accepted -/

/-- From `p` to `q` only the session of `h` has changed: its slot, its key in the map, and its place in
the free list if it is over. Counters and journal are not spoken of. -/
structure OnlyTouches (p q : Pool) (h : Handle) : Prop where
  settings : q.config = p.config ∧ q.registry = p.registry
  issued : q.generation = p.generation
  clock : q.watermark = p.watermark
  slots : ∀ j, j ≠ h.slot → q.slots[j]? = p.slots[j]?
  own : ∃ slot, q.slots[h.slot]? = some slot ∧ slot.generation = h.generation
  active : ∀ key, key ≠ h.key → q.active[key]? = p.active[key]?
  free : q.free = p.free ∨ q.free = h.slot :: p.free

/-- From `p` to `q` the session of `h` has had its turn on a segment, and is closed if it is done. The
counters are those of the turn, and what is told is what the turn tells. -/
def Heard (p q : Pool) (h : Handle) (s : Segment) : Prop :=
  ∃ l, p.lifecycle? h.generation = some l ∧ l.session.key = h.key ∧
    let turn := l.turn p.config p.registry p.counters (.segment s)
    let last : List Notice :=
      if turn.done then [.sessionClosed (turn.next.session.summary .finish)] else []
    q.lifecycle? h.generation = (if turn.done then none else some turn.next) ∧
      q.counters = turn.counters ∧ q.journal = p.journal ++ (turn.notices ++ last).toArray

namespace Consistent

variable {s : Segment}

/-- A segment of another connection is no business of the session. -/
theorem attend_of_other (ho : p.occupant i = some (slot, session))
    (hs : session.key.connects s.flow = false) : p.attend i (.segment s) = p :=
  attend_of_not_for ho ((session.isSome_route s.flow).trans hs)

theorem onlyTouches_attend (hp : p.Consistent) (ho : p.occupant i = some (slot, session)) :
    p.OnlyTouches (p.attend i (.segment s)) ⟨i, slot.generation, session.key⟩ := by
  rcases hs : session.key.connects s.flow with _ | _
  · rw [attend_of_other ho hs]
    exact ⟨⟨rfl, rfl⟩, rfl, rfl, fun j hj => rfl, ⟨slot, (occupant_eq_some.mp ho).1, rfl⟩,
      fun key hkey => rfl, Or.inl rfl⟩
  · have hturned := slots_afterTurn (lt_size ho) slot (p.turnOf slot session (.segment s))
      (.segment s)
    have hfor : (Lifecycle.Input.segment s).isFor session = true :=
      (session.isSome_route s.flow).trans hs
    rw [hp.attend_eq ho hfor]
    dsimp only
    split_ifs with hdone
    · have ho' := occupant_afterTurn_self ho (p.turnOf slot session (.segment s)) (.segment s)
      have hempty := slots_retire (lt_size ho')
        (slot.turned (p.turnOf slot session (.segment s)) (.segment s))
        (p.turnOf slot session (.segment s)).next.session .finish
      refine ⟨⟨rfl, rfl⟩, rfl, rfl, ?_, ?_, ?_, Or.inr rfl⟩
      · intro j hj
        show (Pool.retire _ i _ _ .finish).slots[j]? = p.slots[j]?
        rw [hempty, if_neg (Ne.symm hj), hturned, if_neg (Ne.symm hj)]
      · exact ⟨_, (hempty i).trans (if_pos rfl), rfl⟩
      · intro key hkey
        rw [(hp.afterTurnOf ho (.segment s)).active_retire ho']
        apply if_neg
        intro heq
        -- A turn does not change the key, so it is that of the handle.
        exact hkey (heq.symm.trans (Lifecycle.key_turn _ _ _ _ (.segment s)))
    · refine ⟨⟨rfl, rfl⟩, rfl, rfl, ?_, ?_, fun key hkey => rfl, Or.inl rfl⟩
      · intro j hj
        rw [hturned, if_neg (Ne.symm hj)]
      · exact ⟨_, (hturned i).trans (if_pos rfl), rfl⟩

theorem heard_attend (hp : p.Consistent) (ho : p.occupant i = some (slot, session)) :
    p.Heard (p.attend i (.segment s)) ⟨i, slot.generation, session.key⟩ s := by
  have hbefore : p.lifecycle? slot.generation = some ⟨session, slot.cache⟩ :=
    hp.lifecycle?_eq_some.mpr ⟨i, slot, session, ho, rfl, rfl⟩
  refine ⟨⟨session, slot.cache⟩, hbefore, rfl, ?_⟩
  rcases hs : session.key.connects s.flow with _ | _
  · have hnone : session.route s.flow = none :=
      Option.isNone_iff_eq_none.mp
        (Option.isSome_eq_false_iff.mp ((session.isSome_route s.flow).trans hs))
    rw [attend_of_other ho hs]
    simp only [Lifecycle.turn, hnone]
    exact ⟨hbefore, trivial, by simp⟩
  · have hfor : (Lifecycle.Input.segment s).isFor session = true :=
      (session.isSome_route s.flow).trans hs
    have hstep : p.step (.attend i (.segment s)) = _ := hp.attend_eq ho hfor
    show (let turn := p.turnOf slot session (.segment s)
      let last : List Notice :=
        if turn.done then [.sessionClosed (turn.next.session.summary .finish)] else []
      (p.step (.attend i (.segment s))).lifecycle? slot.generation =
          (if turn.done then none else some turn.next) ∧
        (p.step (.attend i (.segment s))).counters = turn.counters ∧
        (p.step (.attend i (.segment s))).journal =
          p.journal ++ (turn.notices ++ last).toArray)
    dsimp only at hstep ⊢
    split_ifs at hstep ⊢ with hdone
    · have hempty : (p.step (.attend i (.segment s))).occupant i = none := by
        rw [hstep, occupant_retire_afterTurn ho, if_pos rfl]
      refine ⟨hp.not_open_of_emptied ho hempty, ?_, ?_⟩
      · rw [hstep]
        rfl
      · rw [hstep]
        show p.journal ++ _ ++ #[_] = _
        simp [Lifecycle.Input.reason]
    · refine ⟨hp.lifecycle?_of_turned ho hstep, ?_, ?_⟩
      · rw [hstep]
        rfl
      · rw [hstep]
        show p.journal ++ _ = _
        simp

end Consistent

namespace Accounted

variable {s : Segment}

/-- What is accepted has a session in its slot, and the handle is that session's. -/
theorem occupant_of_accepted (ha : p.Accounted given) (hh : h ∈ given)
    (hs : (p.submit h s).2 = .ok ()) :
    ∃ slot session, p.occupant h.slot = some (slot, session) ∧
      h = ⟨h.slot, slot.generation, session.key⟩ := by
  rw [submit_answer] at hs
  exact handleOf_eq_some.mp ((ha.answered hh).ok_iff.mp hs)

theorem submit_effect (ha : p.Accounted given) (hp : p.Consistent) (hh : h ∈ given)
    (hs : (p.submit h s).2 = .ok ()) :
    p.OnlyTouches (p.submit h s).1 h ∧ p.Heard (p.submit h s).1 h s := by
  obtain ⟨slot, session, ho, heq⟩ := ha.occupant_of_accepted hh hs
  rw [submit_of_accepted hs, heq]
  exact ⟨hp.onlyTouches_attend ho, hp.heard_attend ho⟩

theorem submit_of_other (ha : p.Accounted given) (hh : h ∈ given)
    (hother : h.key.connects s.flow = false) : (p.submit h s).1 = p := by
  by_cases hs : (p.submit h s).2 = .ok ()
  · obtain ⟨slot, session, ho, heq⟩ := ha.occupant_of_accepted hh hs
    rw [heq] at hother
    rw [submit_of_accepted hs]
    exact Consistent.attend_of_other ho hother
  · exact submit_of_refused hs

end Accounted

end Pool

/-- **Stale handles are harmless.** After every run of a tracker each handle that was given out in it
is answered for what it is: accepted if and only if its session is open, refused as closed if and only
if the session is over and its slot empty since, and refused as stale if and only if a later session
was opened in the slot. A refusal leaves the pool as it is. A segment that is accepted is one turn of
the handle's own session and touches nothing else, and a segment of another connection touches nothing
at all. -/
theorem Tracker.stale_handles_harmless (name : String) (config : Config) (registry : Registry)
    (calls : List TrackerCall) :
    let start := Pool.new config registry
    let p := ((Tracker.new name config registry).run calls).pool
    let given := start.handedOut (start.stepsOfAll calls)
    p = start.steps (start.stepsOfAll calls) ∧ ∀ h ∈ given,
      (∀ s, p.Answered given h (p.submit h s).2) ∧
      (∀ reason, p.Answered given h (p.closeBy h reason).2) ∧
      (∀ s, (p.submit h s).2 ≠ .ok () → (p.submit h s).1 = p) ∧
      (∀ reason, (p.closeBy h reason).2 ≠ .ok () → (p.closeBy h reason).1 = p) ∧
      (∀ s, (p.submit h s).2 = .ok () →
        p.OnlyTouches (p.submit h s).1 h ∧ p.Heard (p.submit h s).1 h s) ∧
      ∀ s, h.key.connects s.flow = false → (p.submit h s).1 = p := by
  have hnew := Pool.Consistent.new config registry
  have hrun := (Tracker.new name config registry).pool_run calls
  dsimp only
  rw [hrun]
  have hp := hnew.steps ((Pool.new config registry).stepsOfAll calls)
  have ha := (Pool.Accounted.new config registry).steps hnew
    ((Pool.new config registry).stepsOfAll calls)
  rw [List.nil_append] at ha
  refine ⟨rfl, ?_⟩
  intro h hh
  refine ⟨?_, ?_, ?_, ?_, ?_, ?_⟩
  · intro s
    rw [Pool.submit_answer]
    exact ha.answered hh
  · intro reason
    rw [Pool.closeBy_answer]
    exact ha.answered hh
  · exact fun s hs => Pool.submit_of_refused hs
  · exact fun reason hreason => Pool.closeBy_of_refused hreason
  · exact fun s hs => ha.submit_effect hp hh hs
  · exact fun s hother => ha.submit_of_other hh hother

end FlowWatch
