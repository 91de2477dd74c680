/-
A pool does not see where the sequence numbers of a connection begin.

The two pools of two runs, of which one is fed the moved segments, are alike in everything but the
caches of their slots, and those are twins (`Twins`). Nothing that a pool decides hangs on a cache, so a
step and the moved step lead from twins to twins; the only part with an argument in it is the turn of a
session, and that is `Lifecycle.turn_shift`.
-/
import FlowWatch.Proofs.Pool.Simulation
import FlowWatch.Proofs.Session.Shift

set_option autoImplicit false

namespace FlowWatch

/-- Two rows of slots with the same sessions in them, on twin caches. -/
structure Slot.Twins (o : Flow → Sequence) (xs ys : Array Slot) : Prop where
  size_eq : ys.size = xs.size
  get : ∀ (i : Nat) (a : Slot), xs[i]? = some a →
    ∃ e, ys[i]? = some { a with cache := e } ∧ SeqCache.Twins o a.cache e

/-- The step, with the segment in it moved. -/
def PoolStep.shift (o : Flow → Sequence) : PoolStep → PoolStep
  | .attend i input => .attend i (input.shift o)
  | s => s

/-- Two slots with the same session in them, on twin caches. -/
def Slot.Twin (o : Flow → Sequence) (a b : Slot) : Prop :=
  ∃ e, b = { a with cache := e } ∧ SeqCache.Twins o a.cache e

variable {o : Flow → Sequence}

/-- A slot after a turn and its twin after the moved turn. -/
theorem Slot.turned_shift (slot : Slot) (turn : Lifecycle.Turn) (input : Lifecycle.Input)
    (c d : SeqCache) :
    { slot with cache := c }.turned { turn with next := ⟨turn.next.session, d⟩ } (input.shift o) =
      { slot.turned turn input with cache := d } := by
  unfold Slot.turned
  rw [input.touch_shift]

/-- A pool looks at everything in a slot but the cache. -/
theorem Slot.Twin.likeness : Slot.Likeness (Slot.Twin o) where
  fresh maxAge := ⟨.new maxAge, rfl, .new maxAge⟩
  openWith := by
    rintro a - ⟨e, rfl, htwins⟩ key now generation
    exact ⟨e.reopen, rfl, htwins.reopen⟩
  vacated := by
    rintro a - ⟨e, rfl, htwins⟩
    exact ⟨e.shut, rfl, htwins.shut⟩
  frame := by
    rintro a - ⟨e, rfl, -⟩
    exact ⟨rfl, rfl, rfl⟩
  session_none := by
    rintro a - ⟨e, rfl, -⟩ hnone
    exact hnone
  session_some := by
    rintro a - s ⟨e, rfl, -⟩ hsome
    exact ⟨s, hsome, rfl, fun _ => rfl⟩

namespace Pool

/-- Two pools that differ in the caches of their slots at most, and there they are twins. -/
def Twins (o : Flow → Sequence) (p q : Pool) : Prop :=
  ∃ slots : Array Slot, q = { p with slots := slots } ∧ Slot.Twins o p.slots slots

namespace Twins

variable {p q : Pool} {i : Nat} {slot : Slot} {session : Session}

/-- Twins are alike, and every notice counts. -/
theorem alike (h : Twins o p q) : Alike (Slot.Twin o) (fun _ => true) p q := by
  obtain ⟨slots, rfl, hslots⟩ := h
  refine ⟨rfl, rfl, rfl, rfl, rfl, rfl, rfl, rfl, hslots.size_eq, fun i a ha => ?_⟩
  obtain ⟨e, he, htwins⟩ := hslots.get i a ha
  exact ⟨_, he, e, rfl, htwins⟩

theorem of_alike (h : Alike (Slot.Twin o) (fun _ => true) p q) : Twins o p q := by
  have hjournal : q.journal = p.journal := by
    have heq := h.journal_eq
    rw [List.filter_true, List.filter_true] at heq
    exact Array.toList_inj.mp heq
  refine ⟨q.slots, ?_, h.size_eq, fun i a ha => ?_⟩
  · rw [← h.config_eq, ← h.registry_eq, ← h.active_eq, ← h.free_eq, ← h.generation_eq,
      ← h.watermark_eq, ← h.counters_eq, ← hjournal]
  · obtain ⟨b, hb, e, rfl, htwins⟩ := h.slots i a ha
    exact ⟨e, hb, htwins⟩

theorem new (config : Config) (registry : Registry) :
    Twins o (.new config registry) (.new config registry) :=
  of_alike (.new config registry)

theorem handleOf_eq (h : Twins o p q) (i : Nat) : q.handleOf i = p.handleOf i :=
  h.alike.handleOf_eq Slot.Twin.likeness i

theorem accept_eq (h : Twins o p q) (handle : Handle) : q.accept handle = p.accept handle :=
  h.alike.accept_eq Slot.Twin.likeness handle

theorem occupant_some (h : Twins o p q) (ho : p.occupant i = some (slot, session)) :
    ∃ e, q.occupant i = some ({ slot with cache := e }, session) ∧
      SeqCache.Twins o slot.cache e := by
  obtain ⟨slots, rfl, hslots⟩ := h
  obtain ⟨hs, hp⟩ := occupant_eq_some.mp ho
  obtain ⟨e, hs', htwins⟩ := hslots.get i slot hs
  exact ⟨e, occupant_eq_some.mpr ⟨hs', hp⟩, htwins⟩

/-! ## Steps -/

/-- A connection is resolved to the same handle. -/
theorem resolve (h : Twins o p q) (hp : p.Consistent) (key : Flow) (isOpening isEnding : Bool)
    (now : Instant) :
    Twins o (p.resolve key isOpening isEnding now).1 (q.resolve key isOpening isEnding now).1 ∧
      (q.resolve key isOpening isEnding now).2 = (p.resolve key isOpening isEnding now).2 := by
  obtain ⟨hnext, hhandle⟩ := h.alike.resolve Slot.Twin.likeness hp key isOpening isEnding now
  exact ⟨of_alike hnext, hhandle⟩

theorem attend (h : Twins o p q) (hp : p.Consistent) (hq : q.Consistent) (hb : p.Balanced) (i : Nat)
    (input : Lifecycle.Input) : Twins o (p.attend i input) (q.attend i (input.shift o)) := by
  rcases ho : p.occupant i with _ | ⟨slot, session⟩
  · rw [attend_of_empty ho, attend_of_empty (h.alike.occupant_none Slot.Twin.likeness ho)]
    exact h
  · obtain ⟨c, hc, htwins⟩ := h.occupant_some ho
    by_cases hf : input.isFor session = true
    · have hf' : (input.shift o).isFor session = true := (input.isFor_shift session).trans hf
      -- Both sessions have a turn, and it is the same one up to the cache.
      obtain ⟨d, hturn, hd⟩ := Lifecycle.turn_shift p.config p.registry p.counters
        (l := ⟨session, slot.cache⟩) (hb.twoSided session (mem_live ho)) htwins input
      have hturn' : q.turnOf { slot with cache := c } session (input.shift o) =
          { p.turnOf slot session input with
            next := ⟨(p.turnOf slot session input).next.session, d⟩ } := by
        obtain ⟨slots, rfl, -⟩ := h
        exact hturn
      refine of_alike (h.alike.attend Slot.Twin.likeness hp hq ho hc hf hf'
        input.reason_shift ?_ ?_)
      · rw [hturn']
        exact ⟨rfl, rfl, rfl⟩
      · rw [hturn', Slot.turned_shift]
        exact ⟨d, rfl, hd⟩
    · have hother := Bool.eq_false_iff.mpr hf
      rw [attend_of_not_for ho hother, attend_of_not_for hc ((input.isFor_shift session).trans hother)]
      exact h

/-- **A step and the moved step lead from twins to twins.** -/
theorem step (h : Twins o p q) (hp : p.Consistent) (hq : q.Consistent) (hb : p.Balanced)
    (s : PoolStep) : Twins o (p.step s) (q.step (s.shift o)) := by
  cases s with
  | resolve key isOpening isEnding now => exact (h.resolve hp key isOpening isEnding now).1
  | attend i input => exact h.attend hp hq hb i input
  | close i generation reason =>
    exact of_alike (h.alike.close Slot.Twin.likeness hp hq i generation reason)

theorem steps (h : Twins o p q) (hp : p.Consistent) (hq : q.Consistent) (hb : p.Balanced)
    (ss : List PoolStep) : Twins o (p.steps ss) (q.steps (ss.map (·.shift o))) := by
  induction ss generalizing p q with
  | nil => exact h
  | cons s ss ih =>
    exact ih (h.step hp hq hb s) (hp.step s) (hq.step (s.shift o)) (hb.of_move hp (hp.move s))

end Twins

end Pool

end FlowWatch
