/-
What a flush does.

A flush looks at every mapped connection once, and the ones it chooses are closed one after the other.
No two of them share a slot, so closing one leaves the next as it was chosen, and in the end just these
sessions are gone (`Lost`): each has its summary, its slot is free again and its connection is not mapped
any more. Everything else stays as it is, the interface's counters and the watermark too.
-/
import FlowWatch.Proofs.Pool.Books

set_option autoImplicit false

namespace FlowWatch

namespace Pool

/-- A session in its slot. -/
abbrev Placed := Nat × Slot × Session

/-- **Between `p` and `q` the sessions `gone` were flushed, and nothing else happened.** -/
structure Lost (p q : Pool) (gone : List Placed) : Prop where
  /-- They were open. -/
  opened : ∀ e ∈ gone, p.occupant e.1 = some e.2
  /-- Each was flushed once. -/
  apart : (gone.map (·.1)).Nodup
  /-- Each has its summary, and there is nothing else to report. -/
  journal_eq : q.journal =
    p.journal ++ (gone.map fun e => Notice.sessionClosed (e.2.2.summary .flush)).toArray
  /-- Their slots are taken back. -/
  vacated : ∀ e ∈ gone, q.slots[e.1]? = some e.2.1.vacated
  /-- All other slots are as they were. -/
  slots_eq : ∀ i ∉ gone.map (·.1), q.slots[i]? = p.slots[i]?
  /-- The slots taken back are free. -/
  free_eq : q.free = (gone.map (·.1)).reverse ++ p.free
  /-- Their connections are not mapped any more, and all others are as they were. -/
  active_eq : ∀ key : Flow,
    q.active[key]? = if key ∈ gone.map (·.2.2.key) then none else p.active[key]?
  counters_eq : q.counters = p.counters
  watermark_eq : q.watermark = p.watermark
  generation_eq : q.generation = p.generation
  settings_eq : q.config = p.config ∧ q.registry = p.registry

/-- The open sessions whose slot is selected, in their slots. -/
def chosen (p : Pool) (select : Slot → Bool) : List Placed :=
  p.active.toList.filterMap fun e =>
    (p.occupant e.2).bind fun o => if select o.1 then some (e.2, o) else none

variable {p q : Pool} {i : Nat} {slot : Slot} {session : Session} {gone : List Placed}

namespace Lost

theorem refl (p : Pool) : p.Lost p [] where
  opened := fun _ he => absurd he List.not_mem_nil
  apart := List.nodup_nil
  journal_eq := Array.append_empty.symm
  vacated := fun _ he => absurd he List.not_mem_nil
  slots_eq := fun _ _ => rfl
  free_eq := rfl
  active_eq := fun _ => rfl
  counters_eq := rfl
  watermark_eq := rfl
  generation_eq := rfl
  settings_eq := ⟨rfl, rfl⟩

/-- One session is flushed before the others, who are in other slots. -/
theorem cons (h : p.Consistent) (ho : p.occupant i = some (slot, session))
    (hnew : i ∉ gone.map (·.1)) (hl : (p.retire i slot session .flush).Lost q gone) :
    p.Lost q ((i, slot, session) :: gone) where
  opened := by
    intro e he
    rcases List.mem_cons.mp he with rfl | he
    · exact ho
    · have hopen := hl.opened e he
      rw [occupant_retire ho] at hopen
      split_ifs at hopen
      exact hopen
  apart := List.nodup_cons.mpr ⟨hnew, hl.apart⟩
  journal_eq := by
    have hfirst : (p.retire i slot session .flush).journal =
        p.journal ++ [Notice.sessionClosed (session.summary .flush)].toArray := rfl
    rw [hl.journal_eq, hfirst, Array.append_assoc]
    exact congrArg (p.journal ++ ·) (List.append_toArray _ _)
  vacated := by
    intro e he
    rcases List.mem_cons.mp he with rfl | he
    · rw [hl.slots_eq i hnew, slots_retire (lt_size ho), if_pos rfl]
    · exact hl.vacated e he
  slots_eq := by
    intro j hj
    obtain ⟨hne, hrest⟩ := not_or.mp (mt List.mem_cons.mpr hj)
    rw [hl.slots_eq j hrest, slots_retire (lt_size ho), if_neg (Ne.symm hne)]
  free_eq := by
    rw [hl.free_eq, List.map_cons, List.reverse_cons, List.append_assoc]
    rfl
  active_eq := by
    intro key
    rw [hl.active_eq, h.active_retire ho, List.map_cons]
    by_cases hkey : session.key = key
    · rw [if_pos hkey, if_pos (List.mem_cons.mpr (.inl hkey.symm)), ite_self]
    · rw [if_neg hkey]
      simp only [List.mem_cons, Ne.symm hkey, false_or]
  counters_eq := hl.counters_eq
  watermark_eq := hl.watermark_eq
  generation_eq := hl.generation_eq
  settings_eq := hl.settings_eq

/-- Who is open afterwards was open before and is not among those who are gone. -/
theorem occupant_eq (h : p.Lost q gone) (i : Nat) :
    q.occupant i = if i ∈ gone.map (·.1) then none else p.occupant i := by
  split_ifs with hi
  · obtain ⟨e, he, rfl⟩ := List.mem_map.mp hi
    refine occupant_eq_none.mpr fun a ha => ?_
    rw [← Option.some.inj ((h.vacated e he).symm.trans ha)]
    rfl
  · exact occupant_of_slots (h.slots_eq i hi)

/-- **A session is gone or stays as it is.** -/
theorem kept_iff (h : p.Lost q gone) (ho : p.occupant i = some (slot, session)) :
    (i, slot, session) ∉ gone ↔ q.occupant i = some (slot, session) := by
  have hslot : i ∈ gone.map (·.1) ↔ (i, slot, session) ∈ gone := by
    constructor
    · intro hi
      obtain ⟨e, he, rfl⟩ := List.mem_map.mp hi
      obtain hsame := Option.some.inj ((h.opened e he).symm.trans ho)
      rwa [← hsame]
    · exact fun he => List.mem_map.mpr ⟨_, he, rfl⟩
  rw [h.occupant_eq, ho]
  by_cases hi : i ∈ gone.map (·.1)
  · simp only [if_pos hi, hslot.mp hi, not_true_eq_false, reduceCtorEq]
  · simp only [if_neg hi, mt hslot.mpr hi, not_false_eq_true]

end Lost

namespace Consistent

/-- An open session is chosen by its slot. -/
theorem mem_chosen (h : p.Consistent) {select : Slot → Bool} {e : Placed} :
    e ∈ p.chosen select ↔ p.occupant e.1 = some e.2 ∧ select e.2.1 = true := by
  unfold chosen
  rw [List.mem_filterMap]
  constructor
  · rintro ⟨⟨key, i⟩, -, he⟩
    obtain ⟨o, ho, he⟩ := Option.bind_eq_some_iff.mp he
    split_ifs at he with hselect
    obtain rfl := Option.some.inj he
    exact ⟨ho, hselect⟩
  · rintro ⟨ho, hselect⟩
    obtain ⟨i, slot, session⟩ := e
    have hmapped := (h.of_occupant ho).2.2
    refine ⟨(session.key, i), Std.HashMap.mem_toList_iff_getElem?_eq_some.mpr hmapped, ?_⟩
    rw [ho, Option.bind_some, if_pos hselect]

theorem chosen_apart (h : p.Consistent) (select : Slot → Bool) :
    ((p.chosen select).map (·.1)).Nodup := by
  have hslots : (p.chosen select).map (·.1) = p.named.filterMap fun i =>
      (p.occupant i).bind fun o => if select o.1 then some i else none := by
    unfold chosen named
    rw [List.map_filterMap, List.filterMap_map]
    refine List.filterMap_congr fun e _ => ?_
    rw [Option.map_bind]
    refine congrArg _ (funext fun o => ?_)
    show Option.map (·.1) (if select o.1 then some (e.2, o) else none) = _
    split_ifs <;> rfl
  rw [hslots]
  refine h.named_nodup.filterMap ?_
  intro i j k hi hj
  obtain ⟨a, -, ha⟩ := Option.bind_eq_some_iff.mp hi
  obtain ⟨b, -, hb⟩ := Option.bind_eq_some_iff.mp hj
  split_ifs at ha hb
  exact (Option.some.inj ha).trans (Option.some.inj hb).symm

/-- A flush takes the chosen sessions by their slots and generations. -/
theorem selected_eq (h : p.Consistent) (select : Slot → Bool) :
    p.selected select = (p.chosen select).map fun e => (e.1, e.2.1.generation) := by
  unfold selected chosen
  rw [List.map_filterMap]
  refine List.filterMap_congr fun e he => ?_
  obtain ⟨slot, session, ho⟩ := h.occupant_of_mem_active he
  obtain ⟨hs, -⟩ := occupant_eq_some.mp ho
  rw [ho]
  simp only [hs, Option.bind_eq_bind, Option.bind_some, (h.of_occupant ho).1.owner_eq,
    isOpen_of_occupant ho, Bool.true_and]
  split_ifs <;> rfl

/-- Sessions in different slots are closed one by one. -/
theorem lost_closes (h : p.Consistent) (hopen : ∀ e ∈ gone, p.occupant e.1 = some e.2)
    (hapart : (gone.map (·.1)).Nodup) :
    p.Lost (p.steps (gone.map fun e => .close e.1 e.2.1.generation .flush)) gone := by
  induction gone generalizing p with
  | nil => exact .refl p
  | cons e gone ih =>
    obtain ⟨i, slot, session⟩ := e
    have ho : p.occupant i = some (slot, session) := hopen _ List.mem_cons_self
    obtain ⟨hnew, hrest⟩ := List.nodup_cons.mp hapart
    have hclose : p.step (.close i slot.generation .flush) = p.retire i slot session .flush :=
      h.close_eq ho .flush
    rw [List.map_cons, steps_cons, hclose]
    refine .cons h ho hnew (ih (h.retire ho .flush) (fun f hf => ?_) hrest)
    have hne : i ≠ f.1 := fun heq => hnew (List.mem_map.mpr ⟨f, hf, heq.symm⟩)
    rw [occupant_retire ho, if_neg hne]
    exact hopen f (List.mem_cons_of_mem _ hf)

/-- **A flush closes the sessions it chooses, and counts them.** -/
theorem lost_flushSelected (h : p.Consistent) (select : Slot → Bool) :
    p.Lost (p.flushSelected select).1 (p.chosen select) ∧
      (p.flushSelected select).2 = (p.chosen select).length := by
  constructor
  · rw [p.flush_eq_steps, flushSteps, h.selected_eq, List.map_map]
    exact h.lost_closes (fun e he => (h.mem_chosen.mp he).1) (h.chosen_apart select)
  · show (p.selected select).length = _
    rw [h.selected_eq, List.length_map]

end Consistent

end Pool

end FlowWatch
