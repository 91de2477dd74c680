/-
The life of one generation, step by step.

While a generation is open a step of the pool is one of four things to it: somebody else's, a turn after
which it goes on, a turn with which it is done, or its end from outside (`Life`). So it is closed by the
last of its inputs if that one finds it done, and from outside otherwise (`Life.ending`). Nothing is seen
of a generation before it is opened, so its life starts with its opening (`Consistent.from_opening`).
-/
import FlowWatch.Proofs.Pool.Generations
import FlowWatch.Proofs.Session.Termination
import FlowWatch.Proofs.Tracker.Isolation

set_option autoImplicit false

namespace FlowWatch

namespace Pool

/-- The step that closes a generation: the first one after which it is not open any more. -/
def closingStepOf (p : Pool) (g : Nat) : List PoolStep → Option PoolStep
  | [] => none
  | s :: ss =>
    if (p.lifecycle? g).isSome && ((p.step s).lifecycle? g).isNone then some s
    else (p.step s).closingStepOf g ss

/-- The steps of a pool, seen from a generation that is open and stands where `l` stands. -/
inductive Life (config : Config) (registry : Registry) (g : Nat) :
    Pool → Lifecycle → List PoolStep → Prop where
  /-- It is open to the last. -/
  | lasting {p : Pool} {l : Lifecycle} (hl : p.lifecycle? g = some l) : Life config registry g p l []
  /-- The step is about somebody else. -/
  | other {p : Pool} {l : Lifecycle} {s : PoolStep} {ss : List PoolStep}
    (hs : (p.tenantOf s).any (·.generation == g) = false)
    (hnext : (p.step s).lifecycle? g = some l) (later : Life config registry g (p.step s) l ss) :
    Life config registry g p l (s :: ss)
  /-- It takes an input and goes on. -/
  | turned {p : Pool} {l : Lifecycle} {i : Nat} {input : Lifecycle.Input} {ss : List PoolStep}
    (hs : (p.tenantOf (.attend i input)).any (·.generation == g) = true)
    (hfor : input.isFor l.session = true) (hdone : (l.turn config registry {} input).done = false)
    (hnext : (p.step (.attend i input)).lifecycle? g = some (l.turn config registry {} input).next)
    (later : Life config registry g (p.step (.attend i input))
      (l.turn config registry {} input).next ss) :
    Life config registry g p l (.attend i input :: ss)
  /-- It takes an input and is done. -/
  | finished {p : Pool} {l : Lifecycle} {i : Nat} {input : Lifecycle.Input} {ss : List PoolStep}
    (hs : (p.tenantOf (.attend i input)).any (·.generation == g) = true)
    (hfor : input.isFor l.session = true) (hdone : (l.turn config registry {} input).done = true)
    (hl : p.lifecycle? g = some l) (hgone : (p.step (.attend i input)).lifecycle? g = none)
    (hsilent : (p.step (.attend i input)).inputsOf g ss = []) :
    Life config registry g p l (.attend i input :: ss)
  /-- It is closed from outside. -/
  | closed {p : Pool} {l : Lifecycle} {i : Nat} {reason : CloseReason} {ss : List PoolStep}
    (hl : p.lifecycle? g = some l) (hgone : (p.step (.close i g reason)).lifecycle? g = none)
    (hsilent : (p.step (.close i g reason)).inputsOf g ss = []) :
    Life config registry g p l (.close i g reason :: ss)

variable {p : Pool} {g : Nat} {l : Lifecycle} {config : Config} {registry : Registry}

theorem inputsOf_of_about {i : Nat} {input : Lifecycle.Input}
    (hs : (p.tenantOf (.attend i input)).any (·.generation == g) = true) (ss : List PoolStep) :
    p.inputsOf g (.attend i input :: ss) =
      input :: (p.step (.attend i input)).inputsOf g ss := by
  rw [inputsOf, if_pos hs]
  rfl

theorem inputsOf_close (p : Pool) (g i generation : Nat) (reason : CloseReason)
    (ss : List PoolStep) :
    p.inputsOf g (.close i generation reason :: ss) =
      (p.step (.close i generation reason)).inputsOf g ss := by
  rw [inputsOf]
  split_ifs <;> rfl

theorem inputsOf_append (p : Pool) (g : Nat) (ss ts : List PoolStep) :
    p.inputsOf g (ss ++ ts) = p.inputsOf g ss ++ (p.steps ss).inputsOf g ts := by
  induction ss generalizing p with
  | nil => rfl
  | cons s ss ih =>
    rw [List.cons_append, inputsOf, inputsOf, ih, List.append_assoc]
    rfl

theorem openingOf_append {opening : Flow × Instant} {ss : List PoolStep}
    (hopening : p.openingOf g ss = some opening) (ts : List PoolStep) :
    p.openingOf g (ss ++ ts) = some opening := by
  induction ss generalizing p with
  | nil => exact absurd hopening (by simp [openingOf])
  | cons s ss ih =>
    cases s with
    | resolve key isOpening isEnding now =>
      rw [openingOf] at hopening
      rw [List.cons_append, openingOf]
      split_ifs at hopening ⊢
      · exact hopening
      · exact ih hopening
    | attend => exact ih hopening
    | close => exact ih hopening

theorem closingStepOf_of_open {s : PoolStep} (h : ((p.step s).lifecycle? g).isSome)
    (ss : List PoolStep) : p.closingStepOf g (s :: ss) = (p.step s).closingStepOf g ss := by
  obtain ⟨l, hl⟩ := Option.isSome_iff_exists.mp h
  rw [closingStepOf, hl]
  exact if_neg (by simp)

theorem closingStepOf_of_unopened {s : PoolStep} (h : p.lifecycle? g = none)
    (ss : List PoolStep) : p.closingStepOf g (s :: ss) = (p.step s).closingStepOf g ss := by
  rw [closingStepOf, h]
  exact if_neg (by simp)

theorem closingStepOf_of_closed {s : PoolStep} (hl : p.lifecycle? g = some l)
    (hgone : (p.step s).lifecycle? g = none) (ss : List PoolStep) :
    p.closingStepOf g (s :: ss) = some s := by
  rw [closingStepOf, hl, hgone]
  rfl

namespace Consistent

theorem lifecycle?_of_not_about (h : Consistent p) (hl : p.lifecycle? g = some l) {s : PoolStep}
    (hs : (p.tenantOf s).any (·.generation == g) = false) : (p.step s).lifecycle? g = some l := by
  obtain ⟨i, slot, session, ho, rfl, rfl⟩ := h.lifecycle?_eq_some.mp hl
  refine (h.step s).lifecycle?_eq_some.mpr ⟨i, slot, session, ?_, rfl, rfl⟩
  refine (h.move s).occupant_eq h ho fun ht => ?_
  rw [ht] at hs
  exact absurd hs (by simp)

/-- **What the steps of a pool are to a generation that is open.** -/
theorem life (h : Consistent p) (hl : p.lifecycle? g = some l) (ss : List PoolStep) :
    Life p.config p.registry g p l ss := by
  induction ss generalizing p l with
  | nil => exact .lasting hl
  | cons s ss ih =>
    obtain ⟨hconfig, hregistry, -⟩ := (h.move s).frame
    rcases hs : (p.tenantOf s).any (·.generation == g) with _ | _
    · have hnext := h.lifecycle?_of_not_about hl hs
      have later := ih (h.step s) hnext
      rw [hconfig, hregistry] at later
      exact .other hs hnext later
    · obtain ⟨i, slot, session, ho, rfl, rfl⟩ := h.lifecycle?_eq_some.mp hl
      rcases h.about_occupant ho hs with ⟨input, rfl, hfor⟩ | ⟨reason, rfl⟩
      · -- The counters of the interface do not matter to the turn.
        obtain ⟨hsame, -, hverdict⟩ :=
          Lifecycle.turn_counters p.config p.registry p.counters ⟨session, slot.cache⟩ {} input
        have hstep : p.step (.attend i input) = _ := h.attend_eq ho hfor
        dsimp only at hstep
        split_ifs at hstep with hdone
        · have hempty : (p.step (.attend i input)).occupant i = none := by
            rw [hstep, occupant_retire_afterTurn ho, if_pos rfl]
          obtain ⟨-, hsilent, -⟩ := h.silent_after_emptied ho hempty ss
          exact .finished hs hfor (hverdict.symm.trans hdone) hl (h.not_open_of_emptied ho hempty)
            hsilent
        · have hnext := h.lifecycle?_of_turned ho hstep
          have later := ih (h.step _) hnext
          rw [hconfig, hregistry] at later
          exact .turned hs hfor (hverdict.symm.trans (Bool.not_eq_true _ ▸ hdone))
            (hnext.trans (congrArg some hsame)) (hsame ▸ later)
      · have hstep : p.step (.close i slot.generation reason) = _ := h.close_eq ho reason
        have hempty : (p.step (.close i slot.generation reason)).occupant i = none := by
          rw [hstep, occupant_retire ho, if_pos rfl]
        obtain ⟨-, hsilent, -⟩ := h.silent_after_emptied ho hempty ss
        exact .closed hl (h.not_open_of_emptied ho hempty) hsilent

/-! ## From the opening on -/

/-- What is opened has not been given out before. -/
theorem lt_of_openingOf (h : Consistent p) {ss : List PoolStep} {opening : Flow × Instant}
    (hopening : p.openingOf g ss = some opening) : p.generation < g := by
  induction ss generalizing p with
  | nil => exact absurd hopening (by simp [openingOf])
  | cons s ss ih =>
    have hle := (h.move s).frame.2.2
    cases s with
    | resolve key isOpening isEnding now =>
      rw [openingOf] at hopening
      split_ifs at hopening with hmine
      · exact hmine.1
      · exact hle.trans_lt (ih (h.step _) hopening)
    | attend => exact hle.trans_lt (ih (h.step _) hopening)
    | close => exact hle.trans_lt (ih (h.step _) hopening)

/-- Before it is opened nothing is seen of a generation: all its life comes after. -/
theorem from_opening (h : Consistent p) {ss : List PoolStep} {key : Flow} {now : Instant}
    (hopening : p.openingOf g ss = some (key, now)) :
    ∃ q later, Consistent q ∧ q.config = p.config ∧ q.registry = p.registry ∧ q.generation = g ∧
      q.lifecycle? g = some (Lifecycle.begin p.config key now) ∧ p.steps ss = q.steps later ∧
      p.inputsOf g ss = q.inputsOf g later ∧ p.closingStepOf g ss = q.closingStepOf g later := by
  induction ss generalizing p with
  | nil => exact absurd hopening (by simp [openingOf])
  | cons s ss ih =>
    have hg := h.lt_of_openingOf hopening
    have hnone := h.not_open_of_lt hg
    have hs := h.not_about hnone s
    obtain ⟨hconfig, hregistry, -⟩ := (h.move s).frame
    rw [inputsOf_of_not_about hs, closingStepOf_of_unopened hnone]
    -- The step opens it, or it is opened later.
    by_cases hmine : (p.step s).generation = g
    · rcases (h.move s).opening h with
        hsame | ⟨key', o, e, now', i, slot, rfl, hnew, ho, hgen, hcache⟩
      · omega
      · rw [openingOf, if_pos ⟨hg, hmine⟩] at hopening
        obtain ⟨rfl, rfl⟩ := Prod.mk.inj (Option.some.inj hopening)
        refine ⟨_, ss, h.step _, hconfig, hregistry, hmine, ?_, rfl, rfl, rfl⟩
        refine (h.step _).lifecycle?_eq_some.mpr
          ⟨i, slot, _, ho, hgen.trans (hnew.symm.trans hmine), ?_⟩
        rw [hcache]
        rfl
    · have hlater : (p.step s).openingOf g ss = some (key, now) := by
        rw [← hopening]
        cases s with
        | resolve key isOpening isEnding now =>
          rw [openingOf]
          exact (if_neg fun hc => hmine hc.2).symm
        | attend => rfl
        | close => rfl
      obtain ⟨q, later, hq, hc, hr, hgiven, hl, hrest⟩ := ih (h.step s) hlater
      rw [hconfig] at hc hl
      exact ⟨q, later, hq, hc, hr.trans hregistry, hgiven, hl, hrest⟩

end Consistent

namespace Life

variable {ss : List PoolStep}

/-- It takes inputs of its own connection alone. -/
theorem isFor (h : Life config registry g p l ss) :
    ∀ input ∈ p.inputsOf g ss, input.isFor l.session = true := by
  induction h with
  | lasting => exact fun input hmem => absurd hmem List.not_mem_nil
  | other hs hnext later ih =>
    rw [Consistent.inputsOf_of_not_about hs]
    exact ih
  | @turned p l i input ss hs hfor hdone hnext later ih =>
    rw [inputsOf_of_about hs]
    intro other hmem
    rcases List.mem_cons.mp hmem with rfl | hlater
    · exact hfor
    · rw [← ih other hlater]
      exact (Lifecycle.Input.isFor_congr (l.key_turn config registry {} input) other).symm
  | @finished p l i input ss hs hfor hdone hl hgone hsilent =>
    rw [inputsOf_of_about hs, hsilent]
    intro other hmem
    rw [List.mem_singleton.mp hmem]
    exact hfor
  | closed hl hgone hsilent =>
    rw [inputsOf_close, hsilent]
    exact fun input hmem => absurd hmem List.not_mem_nil

/-- **How a generation ends.** The last of its inputs finds it done and closes it, or none of them does
and whatever closes it comes from outside. -/
theorem ending (h : Life config registry g p l ss) :
    (∃ earlier input i, p.inputsOf g ss = earlier ++ [input] ∧
        p.closingStepOf g ss = some (.attend i input) ∧
        ∀ k, l.doneAt config registry (p.inputsOf g ss) k = decide (k = earlier.length)) ∨
      ((∀ i input, p.closingStepOf g ss ≠ some (.attend i input)) ∧
        ∀ k, l.doneAt config registry (p.inputsOf g ss) k = false) := by
  induction h with
  | lasting => exact Or.inr ⟨fun i input => by simp [closingStepOf], fun k => rfl⟩
  | other hs hnext later ih =>
    rw [Consistent.inputsOf_of_not_about hs, closingStepOf_of_open (by rw [hnext]; rfl)]
    exact ih
  | @turned p l i input ss hs hfor hdone hnext later ih =>
    rw [inputsOf_of_about hs, closingStepOf_of_open (by rw [hnext]; rfl)]
    -- What happens later happens one place further on.
    rcases ih with ⟨earlier, last, j, hinputs, hclosing, hat⟩ | ⟨hclosing, hat⟩
    · refine Or.inl ⟨input :: earlier, last, j, by rw [hinputs]; rfl, hclosing, fun k => ?_⟩
      cases k with
      | zero => exact hdone
      | succ k => exact (hat k).trans (by simp)
    · refine Or.inr ⟨hclosing, fun k => ?_⟩
      cases k with
      | zero => exact hdone
      | succ k => exact hat k
  | @finished p l i input ss hs hfor hdone hl hgone hsilent =>
    rw [inputsOf_of_about hs, hsilent, closingStepOf_of_closed hl hgone]
    refine Or.inl ⟨[], input, i, rfl, rfl, fun k => ?_⟩
    cases k with
    | zero => exact hdone
    | succ k => rfl
  | closed hl hgone hsilent =>
    rw [inputsOf_close, hsilent, closingStepOf_of_closed hl hgone]
    exact Or.inr ⟨fun i input => by simp, fun k => rfl⟩

variable {key : Flow} {now : Instant}

end Life

end Pool

end FlowWatch
