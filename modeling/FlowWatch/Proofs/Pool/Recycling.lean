/-
Recycled slots behave like fresh ones.

A pool gives a slot to one session after the other, and each time it reuses the cache that stands
there. Seen from one generation none of this shows: it reports what a session of its own with a cache
of its own reports when it is fed the same inputs (`Lifecycle.replay`).

The proof follows one generation through a run. Before it is opened it cannot be told of; while it is
open every step is a turn of it, the end of it, or somebody else's; and once it is closed it never
comes back, because generations are only given out once.
-/
import FlowWatch.Proofs.Pool.Telling
import FlowWatch.Proofs.Tracker.Runs

set_option autoImplicit false

namespace FlowWatch

namespace Pool

/-- The session of a generation and its cache, while it is open. -/
def lifecycle? (p : Pool) (g : Nat) : Option Lifecycle :=
  p.slots.toList.findSome? fun slot =>
    if slot.generation = g then slot.session?.map fun session => ⟨session, slot.cache⟩ else none

/-- The input a step hands over. -/
def inputOf? : PoolStep → Option Lifecycle.Input
  | .attend _ input => some input
  | _ => none

/-- What a generation is fed during a list of steps: the inputs it took. -/
def inputsOf (p : Pool) (g : Nat) : List PoolStep → List Lifecycle.Input
  | [] => []
  | s :: ss =>
    (if (p.tenantOf s).any (·.generation == g) then (inputOf? s).toList else []) ++
      (p.step s).inputsOf g ss

/-- The key and the time a generation is opened with during a list of steps. -/
def openingOf (p : Pool) (g : Nat) : List PoolStep → Option (Flow × Instant)
  | [] => none
  | .resolve key isOpening isEnding now :: ss =>
    let q := p.step (.resolve key isOpening isEnding now)
    if p.generation < g ∧ q.generation = g then some (key, now) else q.openingOf g ss
  | s :: ss => (p.step s).openingOf g ss

/-- What a generation tells during a list of steps. -/
def toldBy (p : Pool) (g : Nat) (ss : List PoolStep) : List Notice :=
  p.told (·.generation == g) ss

/-- During the steps a generation does what the lifecycle `l` does when it is fed the same inputs. It
is still open and stands where `l` stands, or it has been closed and has told the summary of `l` at
the last. -/
def Follows (p : Pool) (g : Nat) (l : Lifecycle) (ss : List PoolStep) : Prop :=
  let alone := l.replay p.config p.registry (p.inputsOf g ss)
  ((p.steps ss).lifecycle? g = some alone.1 ∧ p.toldBy g ss = alone.2) ∨
    ((p.steps ss).lifecycle? g = none ∧
      ∃ reason, p.toldBy g ss = alone.2 ++ [.sessionClosed (alone.1.session.summary reason)])

variable {p : Pool} {g : Nat} {l : Lifecycle}

namespace Consistent

theorem lifecycle?_eq_some (h : Consistent p) :
    p.lifecycle? g = some l ↔
      ∃ i slot session, p.occupant i = some (slot, session) ∧ slot.generation = g ∧
        l = ⟨session, slot.cache⟩ := by
  have hfound : ∀ l, p.lifecycle? g = some l →
      ∃ i slot session, p.occupant i = some (slot, session) ∧ slot.generation = g ∧
        l = ⟨session, slot.cache⟩ := by
    intro l hl
    obtain ⟨slot, hmem, hslot⟩ := List.exists_of_findSome?_eq_some hl
    obtain ⟨i, hi, hs⟩ := List.mem_iff_getElem.mp hmem
    split_ifs at hslot with hg
    obtain ⟨session, hsession, rfl⟩ := Option.map_eq_some_iff.mp hslot
    refine ⟨i, slot, session, occupant_eq_some.mpr ⟨?_, Slot.session?_eq_some.mp hsession⟩, hg, rfl⟩
    rw [← Array.getElem?_toList, List.getElem?_eq_getElem hi, hs]
  refine ⟨hfound l, ?_⟩
  rintro ⟨i, slot, session, ho, hg, rfl⟩
  obtain ⟨hs, hp⟩ := occupant_eq_some.mp ho
  rcases hl : p.lifecycle? g with _ | l
  · have hmem : slot ∈ p.slots.toList := Array.mem_toList_iff.mpr (Array.mem_of_getElem? hs)
    have hnone := List.findSome?_eq_none_iff.mp hl slot hmem
    rw [if_pos hg, Slot.session?_eq_some.mpr hp] at hnone
    exact absurd hnone (by simp)
  · obtain ⟨j, a, t, hj, ha, rfl⟩ := hfound l hl
    obtain rfl := h.generation_inj i j slot a session t ho hj (hg.trans ha.symm)
    obtain ⟨rfl, rfl⟩ := occupant_unique ho hj
    rfl

theorem lifecycle?_eq_none (h : Consistent p) :
    p.lifecycle? g = none ↔
      ∀ i slot session, p.occupant i = some (slot, session) → slot.generation ≠ g := by
  constructor
  · intro hn i slot session ho hg
    rw [h.lifecycle?_eq_some.mpr ⟨i, slot, session, ho, hg, rfl⟩] at hn
    exact absurd hn (by simp)
  · intro hall
    refine Option.eq_none_iff_forall_ne_some.mpr fun l hl => ?_
    obtain ⟨i, slot, session, ho, hg, -⟩ := h.lifecycle?_eq_some.mp hl
    exact hall i slot session ho hg

/-- A step about a generation that is open finds it where it is. -/
theorem about_occupant (h : Consistent p) {i : Nat} {slot : Slot} {session : Session}
    (ho : p.occupant i = some (slot, session)) {s : PoolStep}
    (hs : (p.tenantOf s).any (·.generation == slot.generation) = true) :
    (∃ input : Lifecycle.Input, s = .attend i input ∧ input.isFor session = true) ∨
      ∃ reason, s = .close i slot.generation reason := by
  obtain ⟨j, a, b, hj, hg, hcase⟩ := exists_of_about hs
  have hgen : a.generation = slot.generation := beq_iff_eq.mp hg
  obtain rfl := h.generation_inj j i a slot b session hj ho hgen
  obtain ⟨rfl, rfl⟩ := occupant_unique hj ho
  exact hcase

/-! ## After the end -/

/-- A generation that was given out and is not open never comes back. -/
theorem not_open_step (h : Consistent p) (hg : g ≤ p.generation) (hn : p.lifecycle? g = none)
    (s : PoolStep) : (p.step s).lifecycle? g = none := by
  refine (h.step s).lifecycle?_eq_none.mpr fun i slot session ho => ?_
  rcases (h.move s).origin h ho with ⟨a, t, ha, hgen, -⟩ | ⟨_, _, _, _, -, -, hgen, -⟩
  · rw [← hgen]
    exact h.lifecycle?_eq_none.mp hn i a t ha
  · omega

theorem not_about (h : Consistent p) (hn : p.lifecycle? g = none) (s : PoolStep) :
    (p.tenantOf s).any (·.generation == g) = false := by
  refine Bool.eq_false_iff.mpr fun hs => ?_
  obtain ⟨i, slot, session, ho, hg, -⟩ := exists_of_about hs
  exact h.lifecycle?_eq_none.mp hn i slot session ho (beq_iff_eq.mp hg)

theorem toldBy_of_not_about {s : PoolStep} (hs : (p.tenantOf s).any (·.generation == g) = false)
    (ss : List PoolStep) : p.toldBy g (s :: ss) = (p.step s).toldBy g ss := told_of_not_about hs ss

theorem toldBy_of_about {s : PoolStep} (hs : (p.tenantOf s).any (·.generation == g) = true)
    (ss : List PoolStep) : p.toldBy g (s :: ss) = p.newsOf s ++ (p.step s).toldBy g ss :=
  told_of_about hs ss

theorem inputsOf_of_not_about {s : PoolStep}
    (hs : (p.tenantOf s).any (·.generation == g) = false) (ss : List PoolStep) :
    p.inputsOf g (s :: ss) = (p.step s).inputsOf g ss := by
  rw [inputsOf, hs]
  rfl

/-- It tells nothing and takes nothing any more. -/
theorem silent_after (h : Consistent p) (hg : g ≤ p.generation) (hn : p.lifecycle? g = none)
    (ss : List PoolStep) :
    p.toldBy g ss = [] ∧ p.inputsOf g ss = [] ∧ p.openingOf g ss = none ∧
      (p.steps ss).lifecycle? g = none := by
  induction ss generalizing p with
  | nil => exact ⟨rfl, rfl, rfl, hn⟩
  | cons s ss ih =>
    have hle := (h.move s).frame.2.2
    obtain ⟨htold, hinputs, hopening, hlast⟩ :=
      ih (h.step s) (hg.trans hle) (h.not_open_step hg hn s)
    have hs := h.not_about hn s
    refine ⟨?_, ?_, ?_, hlast⟩
    · rw [toldBy_of_not_about hs, htold]
    · rw [inputsOf_of_not_about hs, hinputs]
    · cases s with
      | resolve key isOpening isEnding now =>
        rw [openingOf, if_neg (by omega), hopening]
      | attend => exact hopening
      | close => exact hopening

/-! ## While it is open -/

/-- A step about somebody else does not show. -/
theorem follows_of_not_about (h : Consistent p) {s : PoolStep} {ss : List PoolStep}
    (hs : (p.tenantOf s).any (·.generation == g) = false) (hf : (p.step s).Follows g l ss) :
    p.Follows g l (s :: ss) := by
  obtain ⟨hconfig, hregistry, -⟩ := (h.move s).frame
  unfold Follows at hf ⊢
  rw [hconfig, hregistry] at hf
  rw [toldBy_of_not_about hs, inputsOf_of_not_about hs, steps_cons]
  exact hf

/-- A generation whose slot is empty after a step is not open any more. -/
theorem not_open_of_emptied (h : Consistent p) {i : Nat} {slot : Slot} {session : Session}
    (ho : p.occupant i = some (slot, session)) {s : PoolStep}
    (hq : (p.step s).occupant i = none) : (p.step s).lifecycle? slot.generation = none := by
  refine (h.step s).lifecycle?_eq_none.mpr fun j a t hj hgen => ?_
  rcases (h.move s).origin h hj with ⟨b, u, hb, hbgen, -⟩ | ⟨_, _, _, _, -, -, hnew, -⟩
  · obtain rfl := h.generation_inj j i b slot u session hb ho (hbgen.trans hgen)
    rw [hq] at hj
    exact absurd hj (by simp)
  · have hle := (h.of_occupant ho).2.1
    omega

/-- Such a step is the last that is seen of the generation. -/
theorem silent_after_emptied (h : Consistent p) {i : Nat} {slot : Slot} {session : Session}
    (ho : p.occupant i = some (slot, session)) {s : PoolStep}
    (hq : (p.step s).occupant i = none) (ss : List PoolStep) :
    (p.step s).toldBy slot.generation ss = [] ∧ (p.step s).inputsOf slot.generation ss = [] ∧
      ((p.step s).steps ss).lifecycle? slot.generation = none := by
  have hle := (h.of_occupant ho).2.1.trans (h.move s).frame.2.2
  obtain ⟨htold, hinputs, -, hlast⟩ :=
    (h.step s).silent_after hle (h.not_open_of_emptied ho hq) ss
  exact ⟨htold, hinputs, hlast⟩

/-- After a turn the generation stands where the turn leads. -/
theorem lifecycle?_of_turned (h : Consistent p) {i : Nat} {slot : Slot} {session : Session}
    (ho : p.occupant i = some (slot, session)) {input : Lifecycle.Input}
    (hstep : p.step (.attend i input) =
      p.afterTurn i slot (p.turnOf slot session input) input) :
    (p.step (.attend i input)).lifecycle? slot.generation =
      some (p.turnOf slot session input).next := by
  refine (h.step _).lifecycle?_eq_some.mpr ⟨i, slot.turned (p.turnOf slot session input) input,
    (p.turnOf slot session input).next.session, ?_, rfl, rfl⟩
  rw [hstep, occupant_afterTurn_self ho]

/-- A turn of the session is a turn of the lifecycle. -/
theorem follows_of_input (h : Consistent p) {i : Nat} {slot : Slot} {session : Session}
    (ho : p.occupant i = some (slot, session)) {input : Lifecycle.Input}
    (hf : input.isFor session = true) {ss : List PoolStep}
    (ih : ∀ l, (p.step (.attend i input)).lifecycle? slot.generation = some l →
      (p.step (.attend i input)).Follows slot.generation l ss) :
    p.Follows slot.generation ⟨session, slot.cache⟩ (.attend i input :: ss) := by
  obtain ⟨hconfig, hregistry, -⟩ := (h.move (.attend i input)).frame
  have habout : (p.tenantOf (.attend i input)).any (·.generation == slot.generation) = true := by
    rw [tenantOf_attend ho hf]
    exact beq_self_eq_true _
  have hinputs : p.inputsOf slot.generation (.attend i input :: ss) =
      input :: (p.step (.attend i input)).inputsOf slot.generation ss := by
    rw [inputsOf, if_pos habout]
    rfl
  -- The counters of the interface do not matter to the turn.
  obtain ⟨hnext, hnotices, -⟩ :=
    Lifecycle.turn_counters p.config p.registry p.counters ⟨session, slot.cache⟩ {} input
  have hstep : p.step (.attend i input) = _ := h.attend_eq ho hf
  have hnews := h.newsOf_attend ho hf
  unfold Follows
  rw [hinputs, toldBy_of_about habout, steps_cons, Lifecycle.replay, ← hnext, ← hnotices]
  dsimp only at hstep hnews ⊢
  split_ifs at hstep hnews with hd
  · have hempty : (p.step (.attend i input)).occupant i = none := by
      rw [hstep, occupant_retire_afterTurn ho, if_pos rfl]
    obtain ⟨hsilent, hnomore, hlast⟩ := h.silent_after_emptied ho hempty ss
    rw [hnews, hsilent, hnomore]
    refine Or.inr ⟨hlast, input.reason, ?_⟩
    rw [List.append_nil, Lifecycle.replay, List.append_nil]
    rfl
  · have hrest := ih _ (h.lifecycle?_of_turned ho hstep)
    unfold Follows at hrest
    rw [hconfig, hregistry] at hrest
    rw [hnews]
    rcases hrest with ⟨hlast, htail⟩ | ⟨hlast, reason, htail⟩
    · refine Or.inl ⟨hlast, ?_⟩
      rw [htail]
      rfl
    · refine Or.inr ⟨hlast, reason, ?_⟩
      rw [htail, ← List.append_assoc]
      rfl

/-- Closing the session is the end of the lifecycle. -/
theorem follows_of_close (h : Consistent p) {i : Nat} {slot : Slot} {session : Session}
    (ho : p.occupant i = some (slot, session)) (reason : CloseReason) (ss : List PoolStep) :
    p.Follows slot.generation ⟨session, slot.cache⟩ (.close i slot.generation reason :: ss) := by
  have habout :
      (p.tenantOf (.close i slot.generation reason)).any (·.generation == slot.generation) =
        true := by
    rw [tenantOf_close ho]
    exact beq_self_eq_true _
  have hstep : p.step (.close i slot.generation reason) = _ := h.close_eq ho reason
  have hempty : (p.step (.close i slot.generation reason)).occupant i = none := by
    rw [hstep, occupant_retire ho, if_pos rfl]
  obtain ⟨hsilent, hnomore, hlast⟩ := h.silent_after_emptied ho hempty ss
  unfold Follows
  rw [toldBy_of_about habout, inputsOf, if_pos habout, h.newsOf_close ho, hsilent, hnomore]
  exact Or.inr ⟨hlast, reason, rfl⟩

theorem follows_of_open (h : Consistent p) (hl : p.lifecycle? g = some l) (ss : List PoolStep) :
    p.Follows g l ss := by
  induction ss generalizing p l with
  | nil => exact Or.inl ⟨hl, rfl⟩
  | cons s ss ih =>
    obtain ⟨i, slot, session, ho, rfl, rfl⟩ := h.lifecycle?_eq_some.mp hl
    rcases hs : (p.tenantOf s).any (·.generation == slot.generation) with _ | _
    · refine h.follows_of_not_about hs (ih (h.step s) ?_)
      refine (h.step s).lifecycle?_eq_some.mpr ⟨i, slot, session, ?_, rfl, rfl⟩
      refine (h.move s).occupant_eq h ho fun ht => ?_
      rw [ht] at hs
      exact absurd hs (by simp)
    · rcases h.about_occupant ho hs with ⟨input, rfl, hf⟩ | ⟨reason, rfl⟩
      · exact h.follows_of_input ho hf fun l hl => ih (h.step _) hl
      · exact h.follows_of_close ho reason ss

/-! ## Before it is opened -/

theorem not_open_of_lt (h : Consistent p) (hg : p.generation < g) : p.lifecycle? g = none := by
  refine h.lifecycle?_eq_none.mpr fun i slot session ho hgen => ?_
  have hle := (h.of_occupant ho).2.1
  omega

/-- A generation that is yet to come follows a fresh lifecycle once it is opened. -/
theorem follows_of_opening (h : Consistent p) (hg : p.generation < g) (ss : List PoolStep) :
    match p.openingOf g ss with
    | none => p.toldBy g ss = []
    | some (key, now) => p.Follows g (Lifecycle.begin p.config key now) ss := by
  induction ss generalizing p with
  | nil => rfl
  | cons s ss ih =>
    have hs := h.not_about (h.not_open_of_lt hg) s
    have hstep := (h.move s).opening h
    by_cases hmine : (p.step s).generation = g
    · rcases hstep with hsame | ⟨key, o, e, now, i, slot, rfl, hnew, ho, hgen, hcache⟩
      · omega
      · rw [openingOf, if_pos ⟨hg, hmine⟩]
        refine h.follows_of_not_about hs ((h.step _).follows_of_open ?_ ss)
        refine (h.step _).lifecycle?_eq_some.mpr
          ⟨i, slot, _, ho, hgen.trans (hnew.symm.trans hmine), ?_⟩
        rw [hcache]
        rfl
    · have hlt : (p.step s).generation < g := by
        rcases hstep with hsame | ⟨_, _, _, _, _, _, _, hnew, _⟩ <;> omega
      have hopening : p.openingOf g (s :: ss) = (p.step s).openingOf g ss := by
        cases s with
        | resolve key isOpening isEnding now =>
          rw [openingOf]
          exact if_neg fun hc => hmine hc.2
        | attend => rfl
        | close => rfl
      have hrest := ih (h.step s) hlt
      rw [(h.move s).frame.1] at hrest
      rw [hopening]
      rcases hcase : (p.step s).openingOf g ss with _ | ⟨key, now⟩
      · rw [hcase] at hrest
        rw [toldBy_of_not_about hs]
        exact hrest
      · rw [hcase] at hrest
        exact h.follows_of_not_about hs hrest

end Consistent

end Pool

/-- **Recycled slots behave like fresh ones.** In every run of a tracker, a generation that is never
opened tells nothing, and one that is opened follows a new session on a new cache, opened under the
same key and time and fed what the generation took. Nothing else is told: the journal is made of
what the generations tell, up to notices that are neither summaries nor exchanges. -/
theorem Tracker.generations_follow_fresh (name : String) (config : Config) (registry : Registry)
    (calls : List TrackerCall) :
    let start := Pool.new config registry
    let ss := start.stepsOfAll calls
    let last := ((Tracker.new name config registry).run calls).pool
    last = start.steps ss ∧ last.journal.toList = (start.telling ss).map (·.2) ∧
      (∀ n, (none, n) ∈ start.telling ss → n.summary? = none ∧ n.exchange? = none) ∧
      ∀ g, match start.openingOf g ss with
        | none => start.toldBy g ss = []
        | some (key, now) => start.Follows g (Lifecycle.begin config key now) ss := by
  have h := Pool.Consistent.new config registry
  have hlast := (Tracker.new name config registry).pool_run calls
  dsimp only
  refine ⟨hlast, ?_, ?_, fun g => ?_⟩
  · rw [hlast]
    exact h.journal_steps _
  · exact h.telling_of_nobody _
  · rcases g.eq_zero_or_pos with rfl | hg
    · have hnone : (Pool.new config registry).lifecycle? 0 = none := rfl
      obtain ⟨htold, -, hopening, -⟩ := h.silent_after (Nat.zero_le _) hnone
        ((Pool.new config registry).stepsOfAll calls)
      rw [hopening]
      exact htold
    · exact h.follows_of_opening hg _

end FlowWatch
