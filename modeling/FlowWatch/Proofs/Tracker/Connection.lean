/-
A connection that nobody ends.

Of all that a tracker is fed, only a segment that ends a direction, a flush or an idle tick can close a
session. So when a connection is opened and its segments follow one upon the other, none of them ending a
direction, they all go to the one session, and nothing is lost between the tracker and the session.
-/
import FlowWatch.Proofs.Pool.Recycling
import FlowWatch.Proofs.Session.Traffic
import FlowWatch.Proofs.Tracker.Isolation

set_option autoImplicit false

namespace FlowWatch

/-- A segment that ends no direction does not finish its session. -/
theorem Lifecycle.done_turn_of_not_ending (config : Config) (registry : Registry)
    (counters : Counters) (l : Lifecycle) {s : Segment} (hs : s.flags.isEnding = false) :
    (l.turn config registry counters (.segment s)).done = false := by
  rcases hroute : l.session.route s.flow with _ | d
  · rw [turn_of_unrouted config registry counters hroute]
  · rw [turn_of_routed config registry counters hroute]
    show (Side.receive _ s _ _).finish = false
    unfold Side.receive
    split_ifs
    · rfl
    · dsimp only
      rw [hs, Bool.false_and]

/-- A segment of the connection that ends no direction. -/
def Flow.carries (f : Flow) (s : Segment) : Bool := f.connects s.flow && !s.flags.isEnding

namespace Pool

variable {p : Pool} {i : Nat} {slot : Slot} {session : Session}

/-- The session takes its segment and stays open. -/
theorem Consistent.feed_carried (h : Consistent p) (ho : p.occupant i = some (slot, session))
    {s : Segment} (hs : session.key.carries s = true) (ss : List PoolStep) :
    ∃ later next, (p.step (.attend i (.segment s))).occupant i = some (later, next) ∧
      later.generation = slot.generation ∧ next.key = session.key ∧
      p.inputsOf slot.generation (.attend i (.segment s) :: ss) =
        .segment s :: (p.step (.attend i (.segment s))).inputsOf slot.generation ss := by
  obtain ⟨hflow, hending⟩ := Bool.and_eq_true_iff.mp hs
  have hfor : (Lifecycle.Input.segment s).isFor session = true :=
    (session.isSome_route s.flow).trans hflow
  have hdone : (p.turnOf slot session (.segment s)).done = false :=
    Lifecycle.done_turn_of_not_ending p.config p.registry p.counters _ (by simpa using hending)
  have hstep : p.step (.attend i (.segment s)) = _ := h.attend_eq ho hfor
  dsimp only at hstep
  rw [hdone, if_neg Bool.false_ne_true] at hstep
  refine ⟨_, _, (congrArg (occupant · i) hstep).trans (occupant_afterTurn_self ho _ _), rfl,
    Lifecycle.key_turn p.config p.registry p.counters _ _, ?_⟩
  rw [inputsOf, tenantOf_attend ho hfor, Option.any_some, if_pos (beq_self_eq_true _)]
  rfl

/-- Looking for a session hands nothing over. -/
theorem inputsOf_seek (p : Pool) (g : Nat) (s : Segment) (ss : List PoolStep) :
    p.inputsOf g (.seek s :: ss) = (p.step (.seek s)).inputsOf g ss := by
  rw [inputsOf, tenantOf_seek]
  rfl

/-- As long as none of them ends a direction an open session takes all segments of its connection, and
it is still open after them. -/
theorem Consistent.inputsOf_carried (h : Consistent p)
    (ho : p.occupant i = some (slot, session)) {segments : List Segment}
    (hs : ∀ s ∈ segments, session.key.carries s = true) :
    p.inputsOf slot.generation (p.stepsOfAll (segments.map .feed)) = segments.map .segment ∧
      ∃ l, (p.steps (p.stepsOfAll (segments.map .feed))).lifecycle? slot.generation = some l := by
  induction segments generalizing p slot session with
  | nil => exact ⟨rfl, _, h.lifecycle?_eq_some.mpr ⟨i, slot, session, ho, rfl, rfl⟩⟩
  | cons s segments ih =>
    have hcarried := hs s List.mem_cons_self
    have hflow := (Bool.and_eq_true_iff.mp hcarried).1
    have hseek : (p.step (.seek s)).occupant i = some (slot, session) := by
      have hi : p.slotOf s.flow = some i :=
        h.slotOf_iff_connects.mpr ⟨slot, session, ho, Flow.connects_symm hflow⟩
      show (p.resolve s.flow s.flags.isOpening s.flags.isEnding s.seen).1.occupant i = _
      rw [resolve_of_mapped hi]
      exact ho
    have hfeed : p.stepsOf (.feed s) = [.seek s, .attend i (.segment s)] :=
      h.feedSteps_of_occupant ho hflow
    obtain ⟨later, next, hlater, hgeneration, hkey, hinputs⟩ := (h.step (.seek s)).feed_carried
      hseek hcarried _
    obtain ⟨hrest, hstays⟩ := ih ((h.step (.seek s)).step (.attend i (.segment s))) hlater
      fun t ht => hkey ▸ hs t (List.mem_cons_of_mem s ht)
    rw [List.map_cons, List.map_cons, stepsOfAll, hfeed]
    rw [hgeneration] at hrest hstays
    refine ⟨?_, hstays⟩
    show p.inputsOf slot.generation (.seek s :: .attend i (.segment s) :: _) = _
    rw [inputsOf_seek, hinputs]
    exact congrArg _ hrest

/-- **A connection that nobody ends is heard from its first segment on**, and it stays open. -/
theorem Consistent.connection_carried (h : Consistent p) {s : Segment} (hi : p.slotOf s.flow = none)
    (hopen : p.config.admits s = true) {segments : List Segment}
    (hs : ∀ t ∈ segments, s.flow.carries t = true) :
    let ss := p.stepsOfAll ((s :: segments).map .feed)
    p.openingOf (p.generation + 1) ss = some (s.flow, s.seen) ∧
      p.inputsOf (p.generation + 1) ss = (s :: segments).map .segment ∧
      ∃ l, (p.steps ss).lifecycle? (p.generation + 1) = some l := by
  obtain ⟨i, slot, hfeed, ho, -, -⟩ := h.feedSteps_of_opened hi hopen
  have hq := h.step (.seek s)
  have hself : s.flow.connects s.flow = true := Flow.connects_iff.mpr (.inl rfl)
  have hgeneration : slot.generation = p.generation + 1 ∧
      (p.step (.seek s)).generation = p.generation + 1 := by
    obtain ⟨j, other, -, -, hother, hnext, hgiven, -⟩ := h.resolve_opened hi hopen s.seen
    have hfirst := hq.slotOf_iff_connects.mpr ⟨slot, _, ho, hself⟩
    have hsecond := hq.slotOf_iff_connects.mpr ⟨other, _, hother, hself⟩
    obtain rfl := Option.some.inj (hfirst.symm.trans hsecond)
    obtain ⟨rfl, -⟩ := Prod.mk.inj (Option.some.inj (ho.symm.trans hother))
    exact ⟨hgiven, hnext⟩
  have hcarried : s.flow.carries s = true := by
    unfold Config.admits at hopen
    unfold Flow.carries
    rw [hself, Bool.true_and]
    exact (Bool.and_eq_true_iff.mp (Bool.and_eq_true_iff.mp hopen).1).2
  obtain ⟨later, next, hlater, hkept, hkey, hinputs⟩ := hq.feed_carried ho hcarried
    (((p.step (.seek s)).step (.attend i (.segment s))).stepsOfAll (segments.map .feed))
  obtain ⟨hrest, hstays⟩ := (hq.step (.attend i (.segment s))).inputsOf_carried hlater
    fun t ht => hkey ▸ hs t ht
  have hsteps : p.stepsOfAll ((s :: segments).map .feed) = .seek s :: .attend i (.segment s) ::
      ((p.step (.seek s)).step (.attend i (.segment s))).stepsOfAll (segments.map .feed) := by
    rw [List.map_cons, stepsOfAll]
    show p.feedSteps s ++ (p.steps (p.feedSteps s)).stepsOfAll _ = _
    rw [hfeed]
    rfl
  dsimp only
  rw [hsteps]
  rw [hkept, hgeneration.1] at hrest hstays
  rw [hgeneration.1] at hinputs
  refine ⟨if_pos ⟨Nat.lt_succ_self _, hgeneration.2⟩, ?_, hstays⟩
  rw [inputsOf_seek, hinputs, hrest]
  rfl

/-- In a new pool it is the first generation. -/
theorem connection_carried_new (config : Config) (registry : Registry) {s : Segment}
    (hopen : config.admits s = true) {segments : List Segment}
    (hs : ∀ t ∈ segments, s.flow.carries t = true) :
    let start := Pool.new config registry
    let ss := start.stepsOfAll ((s :: segments).map .feed)
    start.openingOf 1 ss = some (s.flow, s.seen) ∧
      start.inputsOf 1 ss = (s :: segments).map .segment ∧
      ∃ l, (start.steps ss).lifecycle? 1 = some l := by
  have hnone : (Pool.new config registry).slotOf s.flow = none := by
    simp [slotOf, Pool.new]
  exact (Consistent.new config registry).connection_carried hnone hopen hs

end Pool

end FlowWatch
