/-
One generation, from its opening to its summary.

What a generation delivers is what its lifecycle reports, and a lifecycle reports no summary of its
own accord. So the summary comes from the step that closes the generation, and from no other: one
that is open has delivered none, and one that is closed has delivered one, under the key it was opened
with and for the reason of that step. A step that comes too late finds nobody, whatever its reason.
-/
import FlowWatch.Proofs.Pool.Recycling
import FlowWatch.Proofs.Session.Traffic

set_option autoImplicit false

namespace FlowWatch

/-- Why a session is closed that ends with a step. -/
def PoolStep.reason? : PoolStep → Option CloseReason
  | .resolve .. => none
  | .attend _ input => some input.reason
  | .close _ _ reason => some reason

namespace Pool

/-- The summaries a generation delivers during a list of steps. -/
def recordsBy (p : Pool) (g : Nat) (ss : List PoolStep) : List SessionRecord :=
  (p.toldBy g ss).filterMap Notice.summary?

/-- The reason of the step that closes a generation: the first one after which it is not open any
more. -/
def closingOf (p : Pool) (g : Nat) : List PoolStep → Option CloseReason
  | [] => none
  | s :: ss =>
    if (p.lifecycle? g).isSome && ((p.step s).lifecycle? g).isNone then s.reason?
    else (p.step s).closingOf g ss

variable {p : Pool} {g : Nat} {i : Nat} {slot : Slot} {session : Session}

/-- From a pool without slots on, a generation is never opened and tells nothing, or it follows a
fresh lifecycle. -/
theorem story_new (config : Config) (registry : Registry) (g : Nat) (ss : List PoolStep) :
    match (Pool.new config registry).openingOf g ss with
    | none => (Pool.new config registry).toldBy g ss = []
    | some (key, now) =>
      (Pool.new config registry).Follows g (Lifecycle.begin config key now) ss := by
  have h := Consistent.new config registry
  rcases g.eq_zero_or_pos with rfl | hg
  · obtain ⟨htold, -, hopening, -⟩ := h.silent_after (Nat.zero_le _) rfl ss
    rw [hopening]
    exact htold
  · exact h.follows_of_opening hg ss

theorem toldBy_new {config : Config} {registry : Registry} {ss : List PoolStep}
    (hopening : (Pool.new config registry).openingOf g ss = none) :
    (Pool.new config registry).toldBy g ss = [] := by
  have hstory := story_new config registry g ss
  rwa [hopening] at hstory

theorem follows_new {config : Config} {registry : Registry} {ss : List PoolStep} {key : Flow}
    {now : Instant} (hopening : (Pool.new config registry).openingOf g ss = some (key, now)) :
    (Pool.new config registry).Follows g (Lifecycle.begin config key now) ss := by
  have hstory := story_new config registry g ss
  rwa [hopening] at hstory

namespace Consistent

/-- Every generation that was given out was opened by some step. -/
theorem openingOf_isSome (h : Consistent p) {ss : List PoolStep} (hlt : p.generation < g)
    (hle : g ≤ (p.steps ss).generation) : (p.openingOf g ss).isSome := by
  induction ss generalizing p with
  | nil => exact absurd hle (Nat.not_le.mpr hlt)
  | cons s ss ih =>
    rcases (h.move s).opening h with hsame | ⟨key, o, e, now, -, -, rfl, hnew, -⟩
    · have hrest := ih (h.step s) (hsame ▸ hlt) hle
      cases s with
      | resolve key isOpening isEnding now =>
        rw [openingOf, if_neg (by omega)]
        exact hrest
      | attend => exact hrest
      | close => exact hrest
    · rw [openingOf]
      split_ifs with hmine
      · rfl
      · exact ih (h.step _) (by omega) hle

/-! ## The summary -/

theorem recordsBy_of_not_about {s : PoolStep}
    (hs : (p.tenantOf s).any (·.generation == g) = false) (ss : List PoolStep) :
    p.recordsBy g (s :: ss) = (p.step s).recordsBy g ss := by
  unfold recordsBy
  rw [toldBy_of_not_about hs]

theorem recordsBy_of_about {s : PoolStep}
    (hs : (p.tenantOf s).any (·.generation == g) = true) (ss : List PoolStep) :
    p.recordsBy g (s :: ss) =
      (p.newsOf s).filterMap Notice.summary? ++ (p.step s).recordsBy g ss := by
  unfold recordsBy
  rw [toldBy_of_about hs, List.filterMap_append]

/-- A turn delivers no summary. -/
theorem records_turnOf (slot : Slot) (session : Session) (input : Lifecycle.Input) :
    (p.turnOf slot session input).notices.filterMap Notice.summary? = [] :=
  List.filterMap_eq_nil_iff.mpr (Lifecycle.summary?_turn _ _ _ _ input)

/-- A generation that is not open, or stays open, is not closed by the step. -/
theorem closingOf_of_kept {s : PoolStep}
    (hkept : p.lifecycle? g = none ∨ ((p.step s).lifecycle? g).isSome) (ss : List PoolStep) :
    p.closingOf g (s :: ss) = (p.step s).closingOf g ss := by
  rw [closingOf]
  refine if_neg fun hclosed => ?_
  obtain ⟨hopen, hgone⟩ := Bool.and_eq_true_iff.mp hclosed
  rcases hkept with hnone | hsome
  · rw [hnone] at hopen
    exact absurd hopen (by simp)
  · rw [Option.isNone_iff_eq_none.mp hgone] at hsome
    exact absurd hsome (by simp)

theorem closingOf_of_not_about (h : Consistent p) {s : PoolStep}
    (hs : (p.tenantOf s).any (·.generation == g) = false) (ss : List PoolStep) :
    p.closingOf g (s :: ss) = (p.step s).closingOf g ss := by
  refine closingOf_of_kept ?_ ss
  rcases hl : p.lifecycle? g with _ | l
  · exact Or.inl rfl
  · obtain ⟨i, slot, session, ho, rfl, -⟩ := h.lifecycle?_eq_some.mp hl
    have hq := (h.move s).occupant_eq h ho fun ht => by
      rw [ht] at hs
      exact absurd hs (by simp)
    rw [(h.step s).lifecycle?_eq_some.mpr ⟨i, slot, session, hq, rfl, rfl⟩]
    exact Or.inr rfl

/-- A step that empties the slot of a generation closes it. -/
theorem closingOf_of_emptied (h : Consistent p) (ho : p.occupant i = some (slot, session))
    {s : PoolStep} (hq : (p.step s).occupant i = none) (ss : List PoolStep) :
    p.closingOf slot.generation (s :: ss) = s.reason? := by
  have hopen := h.lifecycle?_eq_some.mpr ⟨i, slot, session, ho, rfl, rfl⟩
  rw [closingOf, hopen, h.not_open_of_emptied ho hq]
  rfl

/-- Nor is there a summary after that step. -/
theorem recordsBy_of_emptied (h : Consistent p) (ho : p.occupant i = some (slot, session))
    {s : PoolStep} (hs : (p.tenantOf s).any (·.generation == slot.generation) = true)
    (hq : (p.step s).occupant i = none) (ss : List PoolStep) :
    p.recordsBy slot.generation (s :: ss) = (p.newsOf s).filterMap Notice.summary? := by
  obtain ⟨hsilent, -, -⟩ := h.silent_after_emptied ho hq ss
  rw [recordsBy_of_about hs]
  unfold recordsBy
  rw [hsilent]
  exact List.append_nil _

/-- **The summary comes from the step that closes the generation**, and shows the reason of that
step. -/
theorem closeReason_recordsBy (h : Consistent p) (g : Nat) (ss : List PoolStep) :
    (p.recordsBy g ss).map (·.closeReason) = (p.closingOf g ss).toList := by
  induction ss generalizing p with
  | nil => rfl
  | cons s ss ih =>
    rcases hs : (p.tenantOf s).any (·.generation == g) with _ | _
    · rw [recordsBy_of_not_about hs, h.closingOf_of_not_about hs]
      exact ih (h.step s)
    · obtain ⟨i, slot, session, ho, hg, hcase⟩ := exists_of_about hs
      obtain rfl : slot.generation = g := beq_iff_eq.mp hg
      rcases hcase with ⟨input, rfl, hf⟩ | ⟨reason, rfl⟩
      · have hstep : p.step (.attend i input) = _ := h.attend_eq ho hf
        have hnews := h.newsOf_attend ho hf
        dsimp only at hstep hnews
        split_ifs at hstep hnews
        · have hempty : (p.step (.attend i input)).occupant i = none := by
            rw [hstep, occupant_retire_afterTurn ho, if_pos rfl]
          rw [h.recordsBy_of_emptied ho hs hempty, h.closingOf_of_emptied ho hempty, hnews,
            List.filterMap_append, records_turnOf]
          rfl
        · have hkept := h.lifecycle?_of_turned ho hstep
          rw [recordsBy_of_about hs, hnews, records_turnOf,
            closingOf_of_kept (Or.inr (by rw [hkept]; rfl))]
          exact ih (h.step _)
      · have hstep : p.step (.close i slot.generation reason) = _ := h.close_eq ho reason
        have hempty : (p.step (.close i slot.generation reason)).occupant i = none := by
          rw [hstep, occupant_retire ho, if_pos rfl]
        rw [h.recordsBy_of_emptied ho hs hempty, h.closingOf_of_emptied ho hempty,
          h.newsOf_close ho]
        rfl

end Consistent

/-- Of a generation that follows a lifecycle there is one summary at the end and none before, and it
is the summary of the lifecycle. -/
theorem Follows.recordsBy_eq {l : Lifecycle} {ss : List PoolStep} (hf : p.Follows g l ss) :
    let alone := l.replay p.config p.registry (p.inputsOf g ss)
    ((p.steps ss).lifecycle? g = some alone.1 ∧ p.recordsBy g ss = []) ∨
      ((p.steps ss).lifecycle? g = none ∧ ∃ reason,
        p.recordsBy g ss = [alone.1.session.summary reason]) := by
  have hsilent := List.filterMap_eq_nil_iff.mpr
    (Lifecycle.summary?_replay p.config p.registry l (p.inputsOf g ss))
  unfold recordsBy
  rcases hf with ⟨hopen, htold⟩ | ⟨hclosed, reason, htold⟩
  · refine Or.inl ⟨hopen, ?_⟩
    rw [htold]
    exact hsilent
  · refine Or.inr ⟨hclosed, reason, ?_⟩
    rw [htold, List.filterMap_append, hsilent]
    rfl

/-- A generation that is open has the lifecycle of its own. -/
theorem Follows.eq_of_open {l m : Lifecycle} {ss : List PoolStep} (hf : p.Follows g l ss)
    (hm : (p.steps ss).lifecycle? g = some m) :
    m = (l.replay p.config p.registry (p.inputsOf g ss)).1 := by
  rcases hf.recordsBy_eq with ⟨hopen, -⟩ | ⟨hclosed, -⟩
  · exact Option.some.inj (hm.symm.trans hopen)
  · exact absurd (hm.symm.trans hclosed) (by simp)

/-- What a generation has reported of itself sums up the lifecycle of its own. -/
theorem Follows.eq_of_record {l : Lifecycle} {ss : List PoolStep} (hf : p.Follows g l ss)
    {record : SessionRecord} (hrecord : record ∈ p.recordsBy g ss) :
    ∃ reason, record =
      (l.replay p.config p.registry (p.inputsOf g ss)).1.session.summary reason := by
  rcases hf.recordsBy_eq with ⟨-, hnone⟩ | ⟨-, reason, hone⟩
  · rw [hnone] at hrecord
    exact absurd hrecord List.not_mem_nil
  · rw [hone] at hrecord
    exact ⟨reason, List.mem_singleton.mp hrecord⟩

/-- **One summary at the end and none before**, for every generation of a run from a pool without
slots. -/
theorem recordsBy_new {config : Config} {registry : Registry} {ss : List PoolStep} {key : Flow}
    {now : Instant} (hopening : (Pool.new config registry).openingOf g ss = some (key, now)) :
    let start := Pool.new config registry
    (((start.steps ss).lifecycle? g).isSome ∧ start.recordsBy g ss = [] ∧
        start.closingOf g ss = none) ∨
      ((start.steps ss).lifecycle? g = none ∧ ∃ record, start.recordsBy g ss = [record] ∧
        record.client = key.sender ∧ record.server = key.receiver ∧
        start.closingOf g ss = some record.closeReason) := by
  have hreasons := (Consistent.new config registry).closeReason_recordsBy g ss
  have hstory := story_new config registry g ss
  rw [hopening] at hstory
  rcases Follows.recordsBy_eq hstory with ⟨hopen, hnone⟩ | ⟨hclosed, reason, hone⟩
  · rw [hnone] at hreasons
    exact Or.inl ⟨by rw [hopen]; rfl, hnone, Option.toList_eq_nil_iff.mp hreasons.symm⟩
  · have hkey : _ = key := Lifecycle.key_replay config registry
      ((Pool.new config registry).inputsOf g ss) (l := Lifecycle.begin config key now)
    rw [hone] at hreasons
    refine Or.inr ⟨hclosed, _, hone, congrArg Flow.sender hkey, congrArg Flow.receiver hkey, ?_⟩
    exact Option.toList_eq_singleton_iff.mp hreasons.symm

end Pool

end FlowWatch
