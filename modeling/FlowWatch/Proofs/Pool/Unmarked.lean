/-
Pools that differ in the marks of the last report.

The marks are all that a quiet tick leaves behind. Slots that differ in nothing else look the same to the
pool, and their sessions make the same of a segment. So a step that is no tick leads from pools that are
alike to pools that are alike, and a quiet tick can be left out on either side.
-/
import FlowWatch.Proofs.Pool.Figures
import FlowWatch.Proofs.Pool.Simulation
import FlowWatch.Proofs.Session.Marks

set_option autoImplicit false

namespace FlowWatch

/-! ## Slots -/

/-- The phase before the first report. -/
def Phase.unmarked : Phase → Phase
  | .open session => .open session.unmarked
  | phase => phase

namespace Slot

/-- The slot before the first report. -/
def unmarked (slot : Slot) : Slot := { slot with phase := slot.phase.unmarked }

/-- Two slots that differ in the marks of the last report at most. -/
def SameUnmarked (a b : Slot) : Prop := b.unmarked = a.unmarked

theorem session?_unmarked (slot : Slot) :
    slot.unmarked.session? = slot.session?.map Session.unmarked := by
  unfold session? unmarked Phase.unmarked
  rcases slot.phase with _ | session | _ <;> rfl

theorem unmarked_turned (slot : Slot) (turn : Lifecycle.Turn) (input : Lifecycle.Input) :
    (slot.turned turn input).unmarked =
      { slot with
        phase := .open turn.next.unmarked.session
        cache := turn.next.unmarked.cache
        lastSeen := input.touch slot.lastSeen } := rfl

namespace SameUnmarked

variable {a b : Slot} {s t : Session}

theorem frame (h : SameUnmarked a b) :
    b.generation = a.generation ∧ b.owner = a.owner ∧ b.lastSeen = a.lastSeen ∧
      b.cache = a.cache := by
  obtain ⟨-, hgeneration, howner, hlast, hcache⟩ := Slot.mk.inj h
  exact ⟨hgeneration, howner, hlast, hcache⟩

theorem session?_eq (h : SameUnmarked a b) :
    b.session?.map Session.unmarked = a.session?.map Session.unmarked := by
  rw [← session?_unmarked, ← session?_unmarked, h]

theorem lifecycle_eq (h : SameUnmarked a b) (ha : a.session? = some s) (hb : b.session? = some t) :
    (⟨t, b.cache⟩ : Lifecycle).unmarked = (⟨s, a.cache⟩ : Lifecycle).unmarked := by
  have hsessions := h.session?_eq
  rw [ha, hb] at hsessions
  exact congrArg₂ Lifecycle.mk (Option.some.inj hsessions) h.frame.2.2.2

theorem likeness : Slot.Likeness SameUnmarked where
  fresh _ := rfl
  openWith h key now generation := by
    unfold SameUnmarked Slot.openWith
    rw [h.frame.2.2.2]
  vacated h := by
    obtain ⟨hgeneration, -, hlast, hcache⟩ := h.frame
    unfold SameUnmarked Slot.vacated
    rw [hgeneration, hlast, hcache]
  frame h := ⟨h.frame.1, h.frame.2.1, h.frame.2.2.1⟩
  session_none h ha := by
    have hsessions := h.session?_eq
    rw [ha] at hsessions
    exact Option.map_eq_none_iff.mp hsessions
  session_some := by
    intro a b s h ha
    have hsessions := h.session?_eq
    rw [ha] at hsessions
    obtain ⟨t, ht, heq⟩ := Option.map_eq_some_iff.mp hsessions
    have hkey : t.unmarked.key = s.unmarked.key := congrArg Session.key heq
    have hsummary : ∀ reason, t.unmarked.summary reason = s.unmarked.summary reason :=
      fun reason => congrArg (·.summary reason) heq
    exact ⟨t, ht, hkey, hsummary⟩

end SameUnmarked

end Slot

/-! ## Turns -/

/-- The notices that reports are made of. -/
def Notice.isReported (n : Notice) : Bool := n.summary?.isSome || n.exchange?.isSome

theorem Notice.filter_isReported_eq_nil {notices : List Notice}
    (h : ∀ n ∈ notices, n.summary? = none ∧ n.exchange? = none) :
    notices.filter isReported = [] := by
  refine List.filter_eq_nil_iff.mpr fun n hn => ?_
  obtain ⟨hsummary, hexchange⟩ := h n hn
  unfold isReported
  rw [hsummary, hexchange]
  exact Bool.false_ne_true

/-- Sessions that differ in the marks make the same of a segment. -/
theorem Lifecycle.turn_segment_alike (config : Config) (registry : Registry) (counters : Counters)
    {l m : Lifecycle} (h : m.unmarked = l.unmarked) (s : Segment) :
    let u := l.turn config registry counters (.segment s)
    let v := m.turn config registry counters (.segment s)
    u.Alike Notice.isReported v ∧ v.next.unmarked = u.next.unmarked := by
  have hl := l.turn_unmarked config registry counters s
  have hm := m.turn_unmarked config registry counters s
  rw [h, hl] at hm
  refine ⟨⟨?_, ?_, ?_⟩, ?_⟩
  · exact (congrArg Turn.done hm).symm
  · exact (congrArg Turn.counters hm).symm
  · exact congrArg (List.filter Notice.isReported) (congrArg Turn.notices hm).symm
  · exact (congrArg Turn.next hm).symm

/-- Whether the step is a tick. -/
def PoolStep.isTick : PoolStep → Bool
  | .attend _ (.tick _) => true
  | _ => false

namespace Pool

/-- Pools that differ in the marks and in what no report is made of. -/
abbrev SameUnmarked : Pool → Pool → Prop := Alike Slot.SameUnmarked Notice.isReported

/-- A tick of slot `i` finds the session there awake and nothing to purge. -/
def Quiet (p : Pool) (i : Nat) (now : Option Instant) : Prop :=
  ∀ slot session, p.occupant i = some (slot, session) →
    Lifecycle.Quiet p.config ⟨session, slot.cache⟩ now

namespace SameUnmarked

variable {p q : Pool}

theorem attend_segment (h : SameUnmarked p q) (hp : p.Consistent) (hq : q.Consistent) (i : Nat)
    (s : Segment) : SameUnmarked (p.attend i (.segment s)) (q.attend i (.segment s)) := by
  rcases ho : p.occupant i with _ | ⟨a, session⟩
  · rw [attend_of_empty ho, attend_of_empty (h.occupant_none Slot.SameUnmarked.likeness ho)]
    exact h
  · obtain ⟨b, other, hb, hab, -, hkey, -⟩ := h.occupant_some Slot.SameUnmarked.likeness ho
    have hroute : other.route s.flow = session.route s.flow := by
      unfold Session.route
      rw [hkey]
    by_cases hf : (Lifecycle.Input.segment s).isFor session = true
    · have hf' : (Lifecycle.Input.segment s).isFor other = true :=
        (congrArg Option.isSome hroute).trans hf
      have hsame := hab.lifecycle_eq (Slot.session?_eq_some.mpr (occupant_eq_some.mp ho).2)
        (Slot.session?_eq_some.mpr (occupant_eq_some.mp hb).2)
      obtain ⟨hturn, hnext⟩ :=
        Lifecycle.turn_segment_alike p.config p.registry p.counters hsame s
      have hother : q.turnOf b other (.segment s) =
          Lifecycle.turn p.config p.registry p.counters ⟨other, b.cache⟩ (.segment s) := by
        unfold turnOf
        rw [h.config_eq, h.registry_eq, h.counters_eq]
      refine h.attend Slot.SameUnmarked.likeness hp hq ho hb hf hf' rfl ?_ ?_
      · rw [hother]
        exact hturn
      · obtain ⟨hgeneration, howner, hlast, -⟩ := hab.frame
        unfold Slot.SameUnmarked
        rw [hother, Slot.unmarked_turned, Slot.unmarked_turned, hnext, hgeneration, howner, hlast]
        rfl
    · have hnot := Bool.eq_false_iff.mpr hf
      have hnot' : (Lifecycle.Input.segment s).isFor other = false :=
        (congrArg Option.isSome hroute).trans hnot
      rw [attend_of_not_for ho hnot, attend_of_not_for hb hnot']
      exact h

/-- **A step that is no tick keeps pools alike.** -/
theorem step (h : SameUnmarked p q) (hp : p.Consistent) (hq : q.Consistent) {s : PoolStep}
    (hs : s.isTick = false) : SameUnmarked (p.step s) (q.step s) := by
  cases s with
  | resolve key isOpening isEnding now =>
    exact (h.resolve Slot.SameUnmarked.likeness hp key isOpening isEnding now).1
  | attend i input =>
    cases input with
    | segment s => exact h.attend_segment hp hq i s
    | tick now => exact absurd hs.symm Bool.false_ne_true
  | close i generation reason => exact h.close Slot.SameUnmarked.likeness hp hq i generation reason

theorem steps (h : SameUnmarked p q) (hp : p.Consistent) (hq : q.Consistent) {ss : List PoolStep}
    (hss : ∀ s ∈ ss, s.isTick = false) : SameUnmarked (p.steps ss) (q.steps ss) := by
  induction ss generalizing p q with
  | nil => exact h
  | cons s ss ih =>
    exact ih (h.step hp hq (hss s List.mem_cons_self)) (hp.step s) (hq.step s)
      fun t ht => hss t (List.mem_cons_of_mem s ht)

/-- **A quiet tick keeps pools alike**, on one side alone. -/
theorem tick (h : SameUnmarked p q) (hp : p.Consistent) {i : Nat} {now : Option Instant}
    (hquiet : p.Quiet i now) : SameUnmarked (p.attend i (.tick now)) q := by
  rcases ho : p.occupant i with _ | ⟨a, session⟩
  · rw [attend_of_empty ho]
    exact h
  · obtain ⟨b, other, hb, hab, -⟩ := h.occupant_some Slot.SameUnmarked.likeness ho
    obtain ⟨hdone, hnext, hcounters, hnotices⟩ := Lifecycle.turn_quiet p.config p.registry
      p.counters (hquiet a session ho)
    have hawake : (p.turnOf a session (.tick now)).done = false := hdone
    rw [hp.attend_eq ho rfl]
    dsimp only
    rw [hawake, if_neg Bool.false_ne_true]
    -- The turn has left marks and nothing else, and those do not count.
    refine h.stutter ho hb hcounters (Notice.filter_isReported_eq_nil hnotices) ?_
    have hphase : a.phase = .open session := (occupant_eq_some.mp ho).2
    have hnext' : (p.turnOf a session (.tick now)).next.unmarked =
        (⟨session, a.cache⟩ : Lifecycle).unmarked := hnext
    refine Eq.trans hab ?_
    rw [Slot.unmarked_turned, hnext']
    unfold Slot.unmarked
    rw [hphase]
    rfl

/-! ## What pools that are alike report -/

theorem records_eq (h : SameUnmarked p q) : q.records = p.records := by
  have hall : ∀ r : Pool,
      r.records = (r.journal.toList.filter Notice.isReported).filterMap Notice.summary? := by
    intro r
    rw [List.filterMap_filter]
    refine List.filterMap_congr fun n _ => ?_
    unfold Notice.isReported
    rcases n.summary? <;> simp
  rw [hall, hall, h.journal_eq]

theorem exchanges_eq (h : SameUnmarked p q) : q.exchanges = p.exchanges := by
  have hall : ∀ r : Pool,
      r.exchanges = (r.journal.toList.filter Notice.isReported).filterMap Notice.exchange? := by
    intro r
    rw [List.filterMap_filter]
    refine List.filterMap_congr fun n _ => ?_
    unfold Notice.isReported
    rcases n.exchange? <;> simp
  rw [hall, hall, h.journal_eq]

end SameUnmarked

end Pool

end FlowWatch
