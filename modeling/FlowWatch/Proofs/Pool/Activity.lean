/-
What a pool knows of the activity of its sessions.

A session keeps its last activity as it is. Beside it the slot keeps the same time in a signed 64-bit word,
and this word is what the pool looks at from outside. Both are moved by the same inputs, and clamping
commutes with taking the later of two times, so the word is always the clamped time and nothing else
(`Marked`). Whether it is before a cutoff depends on the cutoff: one that the word can hold is compared as if
the time were not clamped, one beyond the greatest word is after all of them, and one at or below the least
word is after none.
-/
import FlowWatch.Proofs.Pool.Lives
import FlowWatch.Proofs.Session.Activity
import Mathlib.Order.Lattice

set_option autoImplicit false

namespace FlowWatch

/-! ## Clamping -/

theorem clampInt64_max (a b : Int) : clampInt64 (max a b) = max (clampInt64 a) (clampInt64 b) := by
  unfold clampInt64
  omega

theorem clampInt64_le (n : Int) : clampInt64 n ≤ int64Max :=
  Int.max_le.mpr ⟨by decide, Int.min_le_left _ _⟩

/-- A clamped time against a cutoff that is not clamped. -/
theorem clampInt64_lt_iff {t cutoff : Int} :
    clampInt64 t < cutoff ↔ int64Max < cutoff ∨ (int64Min < cutoff ∧ t < cutoff) := by
  have hrange : int64Min ≤ int64Max := by decide
  unfold clampInt64
  omega

namespace Pool

/-- Every open session's slot holds its last activity in a 64-bit word. -/
def Marked (p : Pool) : Prop :=
  ∀ i slot session, p.occupant i = some (slot, session) → slot.lastSeen = clampInt64 session.lastSeen

variable {p q : Pool} {i : Nat} {slot : Slot} {session : Session}

namespace Marked

theorem new (config : Config) (registry : Registry) : (Pool.new config registry).Marked :=
  fun _ _ _ ho => absurd ho (by simp [occupant, Pool.new])

/-- A turn moves the word as it moves the last activity. -/
theorem afterTurn (hm : p.Marked) (ho : p.occupant i = some (slot, session))
    {input : Lifecycle.Input} (hfor : input.isFor session = true) :
    (p.afterTurn i slot (p.turnOf slot session input) input).Marked := by
  intro j a t ha
  rw [occupant_afterTurn ho] at ha
  split_ifs at ha
  · obtain ⟨rfl, rfl⟩ := Prod.mk.inj (Option.some.inj ha)
    have hword := hm i slot session ho
    have hlast : (p.turnOf slot session input).next.session.lastSeen =
        input.seen?.elim session.lastSeen (max session.lastSeen) :=
      Lifecycle.lastSeen_turn p.config p.registry p.counters (l := ⟨session, slot.cache⟩) hfor
    rw [hlast]
    cases input with
    | segment s =>
      show max slot.lastSeen (clampInt64 s.seen) = clampInt64 (max session.lastSeen s.seen)
      rw [hword, clampInt64_max]
    | tick now => exact hword
  · exact hm j a t ha

theorem retire (hm : p.Marked) (ho : p.occupant i = some (slot, session)) (reason : CloseReason) :
    (p.retire i slot session reason).Marked := by
  intro j a t ha
  rw [occupant_retire ho] at ha
  split_ifs at ha
  exact hm j a t ha

theorem of_move (h : p.Consistent) (hm : p.Marked) {s : PoolStep} (hmove : Move p s q) : q.Marked := by
  cases hmove with
  | still => exact hm
  | seen => exact hm
  | @starved _ _ _ now =>
    exact fun j a t ha => hm j a t ((occupant_stocked (p := p.raised now) j).symm.trans ha)
  | @opened key _ _ now i free hkey hfree =>
    obtain ⟨slot, -, -, hword, -, hocc⟩ := h.occupant_opened hfree key
    intro j a t ha
    rw [hocc] at ha
    split_ifs at ha
    · obtain ⟨rfl, rfl⟩ := Prod.mk.inj (Option.some.inj ha)
      exact hword
    · exact hm j a t ha
  | turned ho hfor => exact hm.afterTurn ho hfor
  | finished ho hfor => exact (hm.afterTurn ho hfor).retire (occupant_afterTurn_self ho _ _) _
  | closed ho => exact hm.retire ho _

/-- **In every run the slots hold the last activities.** -/
theorem steps (h : p.Consistent) (hm : p.Marked) (ss : List PoolStep) : (p.steps ss).Marked := by
  induction ss generalizing p with
  | nil => exact hm
  | cons s ss ih => exact ih (h.step s) (hm.of_move h (h.move s))

end Marked

/-- Whoever stands in a slot at the end of a run was opened in it, and all it took since then was its
own. -/
theorem lifecycle_of_occupant {config : Config} {registry : Registry} {ss : List PoolStep}
    (ho : ((Pool.new config registry).steps ss).occupant i = some (slot, session)) :
    ∃ key opened, (Pool.new config registry).openingOf slot.generation ss = some (key, opened) ∧
      (⟨session, slot.cache⟩ : Lifecycle) = ((Lifecycle.begin config key opened).replay config registry
        ((Pool.new config registry).inputsOf slot.generation ss)).1 ∧
      ∀ input ∈ (Pool.new config registry).inputsOf slot.generation ss,
        input.isFor (Session.new key opened) = true := by
  have hstart := Consistent.new config registry
  have hlive := (hstart.steps ss).lifecycle?_eq_some.mpr ⟨i, slot, session, ho, rfl, rfl⟩
  -- The first generation is 1, so none of those that are open is 0.
  have hpositive : 0 < slot.generation := by
    rcases slot.generation.eq_zero_or_pos with hzero | hpositive
    · obtain ⟨-, -, -, hnone⟩ := hstart.silent_after (Nat.zero_le 0) rfl ss
      rw [hzero, hnone] at hlive
      exact absurd hlive (by simp)
    · exact hpositive
  obtain ⟨⟨key, opened⟩, hopening⟩ := Option.isSome_iff_exists.mp
    (hstart.openingOf_isSome hpositive ((hstart.steps ss).of_occupant ho).2.1)
  obtain ⟨first, later, hfirst, hconfig, -, -, hl, -, hinputs, -⟩ := hstart.from_opening hopening
  refine ⟨key, opened, hopening, (follows_new hopening).eq_of_open hlive, ?_⟩
  rw [hinputs]
  exact (hfirst.life hl later).isFor

/-- **What a slot shows of the activity of its session.** -/
theorem lastSeen_of_occupant {config : Config} {registry : Registry} {ss : List PoolStep}
    (ho : ((Pool.new config registry).steps ss).occupant i = some (slot, session)) :
    ∃ key opened, (Pool.new config registry).openingOf slot.generation ss = some (key, opened) ∧
      session.lastSeen = Lifecycle.lastActivity opened
        ((Pool.new config registry).inputsOf slot.generation ss) ∧
      slot.lastSeen = clampInt64 session.lastSeen := by
  obtain ⟨key, opened, hopening, halone, hfor⟩ := lifecycle_of_occupant ho
  refine ⟨key, opened, hopening, ?_, ?_⟩
  · exact (congrArg (·.session.lastSeen) halone).trans
      (Lifecycle.lastSeen_replay config registry (l := Lifecycle.begin config key opened) hfor)
  · exact (Marked.new config registry).steps (.new config registry) ss i slot session ho

end Pool

end FlowWatch
