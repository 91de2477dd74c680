/-
The books of a pool: sessions opened, sessions summarised, traffic counted.

Three sets of figures are kept apart while a pool runs. The interface counts what comes in, the sides
of the open sessions count it again, and the summaries keep what the closed sessions have counted.
`Balanced` says how they hang together. Every part of a step moves sessions and traffic from one book
to another and drops nothing, so the balance is an invariant like `Consistent`, and is proved the same
way, part by part.

Open sessions are taken as a multiset, because nothing here depends on their slots.
-/
import FlowWatch.Proofs.Pool.Accounting
import FlowWatch.Proofs.Pool.Telling
import FlowWatch.Proofs.Session.Traffic
import Mathlib.Algebra.BigOperators.Group.Multiset.Basic

set_option autoImplicit false

namespace FlowWatch

/-- The traffic of a finished session in a direction. -/
def SessionRecord.traffic (r : SessionRecord) : Direction → Traffic
  | .clientToServer => r.forward
  | .serverToClient => r.backward

theorem Session.traffic_summary (s : Session) (reason : CloseReason) (d : Direction) :
    (s.summary reason).traffic d = (s.side d).total := by
  cases d <;> rfl

theorem Session.total_new (key : Flow) (now : Instant) (d : Direction) :
    ((Session.new key now).side d).total = 0 := by
  cases d <;> rfl

namespace Pool

/-- The summaries that have been delivered. -/
def records (p : Pool) : List SessionRecord := p.journal.toList.filterMap Notice.summary?

/-- The open sessions, in no order. -/
def live (p : Pool) : Multiset Session := ↑(p.slots.toList.filterMap Slot.session?)

/-- **A pool whose books balance.** -/
structure Balanced (p : Pool) : Prop where
  twoSided : ∀ s ∈ p.live, s.TwoSided
  /-- Every session that was opened is open or has a summary. -/
  generation_eq : p.generation = p.records.length + p.live.card
  /-- What the interface has counted is what the sessions have counted. -/
  traffic_eq : ∀ d, p.counters.traffic d =
    (p.records.map (·.traffic d)).sum + (p.live.map fun s => (s.side d).total).sum

variable {p : Pool} {i : Nat} {slot : Slot} {session : Session}

/-! ## The books after each part of a step -/

theorem records_append {q : Pool} {news : List Notice}
    (h : q.journal = p.journal ++ news.toArray) :
    q.records = p.records ++ news.filterMap Notice.summary? := by
  unfold records
  rw [h, Array.toList_append, List.filterMap_append]

theorem records_retire (i : Nat) (slot : Slot) (session : Session) (reason : CloseReason) :
    (p.retire i slot session reason).records = p.records ++ [session.summary reason] := by
  have hjournal : (p.retire i slot session reason).journal =
      p.journal ++ [Notice.sessionClosed (session.summary reason)].toArray := rfl
  exact records_append hjournal

/-- What the pool reports about itself is no summary. -/
theorem records_of_plain {q : Pool} {news : List Notice}
    (h : q.journal = p.journal ++ news.toArray)
    (hnews : ∀ n ∈ news, n.summary? = none ∧ n.exchange? = none) : q.records = p.records := by
  have hnone : news.filterMap Notice.summary? = [] :=
    List.filterMap_eq_nil_iff.mpr fun n hn => (hnews n hn).1
  rw [records_append h, hnone, List.append_nil]

theorem records_openAt (i : Nat) (free : List Nat) (key : Flow) (now : Instant) :
    (p.openAt i free key now).1.records = p.records := by
  obtain ⟨news, hj, hnews⟩ := journal_openAt (p := p) (i := i) free key now
  exact records_of_plain hj hnews

/-- A turn summarises nobody. -/
theorem records_afterTurn (i : Nat) (slot : Slot) (session : Session) (input : Lifecycle.Input) :
    (p.afterTurn i slot (p.turnOf slot session input) input).records = p.records := by
  have hsilent : (p.turnOf slot session input).notices.filterMap Notice.summary? = [] :=
    List.filterMap_eq_nil_iff.mpr (Lifecycle.summary?_turn p.config p.registry p.counters _ input)
  rw [records_append rfl, hsilent, List.append_nil]

/-- What is found in a list beside one of its places does not depend on what stands there. -/
theorem exists_beside {α β : Type} (f : α → Option β) {l : List α} {n : Nat} (hn : n < l.length) :
    ∃ rest : Multiset β, ∀ a, ((l.set n a).filterMap f : Multiset β) = (f a).toList + rest := by
  refine ⟨(l.take n).filterMap f + (l.drop (n + 1)).filterMap f, fun a => ?_⟩
  have hcons : (a :: l.drop (n + 1)).filterMap f =
      (f a).toList ++ (l.drop (n + 1)).filterMap f := by
    rcases ha : f a with _ | b
    · rw [List.filterMap_cons_none ha]
      rfl
    · rw [List.filterMap_cons_some ha]
      rfl
  rw [List.set_eq_take_append_cons_drop, if_pos hn, List.filterMap_append, hcons,
    ← Multiset.coe_add, ← Multiset.coe_add, add_left_comm]

/-- The open sessions beside the one in slot `i`, whatever is put there. -/
theorem live_set (hs : p.slots[i]? = some slot) :
    ∃ rest : Multiset Session, p.live = slot.session?.toList + rest ∧
      ∀ (q : Pool) (b : Slot), q.slots = p.slots.setIfInBounds i b →
        q.live = b.session?.toList + rest := by
  obtain ⟨hi, hget⟩ := Array.getElem?_eq_some_iff.mp hs
  obtain ⟨rest, hrest⟩ := exists_beside Slot.session? (l := p.slots.toList) hi
  refine ⟨rest, ?_, fun q b hq => ?_⟩
  · have hself := hrest slot
    rw [← hget, ← Array.getElem_toList, List.set_getElem_self] at hself
    rw [← hget]
    exact hself
  · unfold live
    rw [hq, Array.toList_setIfInBounds]
    exact hrest b

theorem live_afterTurn (ho : p.occupant i = some (slot, session)) (turn : Lifecycle.Turn)
    (input : Lifecycle.Input) :
    ∃ rest : Multiset Session, p.live = session ::ₘ rest ∧
      (p.afterTurn i slot turn input).live = turn.next.session ::ₘ rest := by
  obtain ⟨hs, hp⟩ := occupant_eq_some.mp ho
  obtain ⟨rest, hbefore, hafter⟩ := live_set hs
  rw [Slot.session?_eq_some.mpr hp] at hbefore
  exact ⟨rest, hbefore, hafter (p.afterTurn i slot turn input) (slot.turned turn input) rfl⟩

theorem live_retire (ho : p.occupant i = some (slot, session)) (reason : CloseReason) :
    p.live = session ::ₘ (p.retire i slot session reason).live := by
  obtain ⟨hs, hp⟩ := occupant_eq_some.mp ho
  obtain ⟨rest, hbefore, hafter⟩ := live_set hs
  have hgone : (p.retire i slot session reason).live = rest :=
    (hafter _ slot.vacated rfl).trans (zero_add rest)
  rw [hbefore, hgone, Slot.session?_eq_some.mpr hp]
  rfl

theorem mem_live (ho : p.occupant i = some (slot, session)) : session ∈ p.live := by
  rw [live_retire ho .flush]
  exact Multiset.mem_cons_self _ _

theorem live_openAt (hs : p.slots[i]? = some slot) (hnone : slot.session? = none)
    (free : List Nat) (key : Flow) (now : Instant) :
    (p.openAt i free key now).1.live = .new key now ::ₘ p.live := by
  obtain ⟨hi, -⟩ := Array.getElem?_eq_some_iff.mp hs
  obtain ⟨rest, hbefore, hafter⟩ := live_set hs
  have hslots : (p.openAt i free key now).1.slots = p.slots.setIfInBounds i _ :=
    Array.ext_getElem? fun j =>
      (slots_openAt hs free key now j).trans (getElem?_slots_set hi _ j).symm
  rw [hafter _ _ hslots, hbefore, hnone]
  exact congrArg (Session.new key now ::ₘ ·) (zero_add rest).symm

/-- Growth opens nothing and counts nothing. -/
theorem books_stocked :
    p.stocked.live = p.live ∧ p.stocked.counters = p.counters ∧
      p.stocked.records = p.records := by
  refine ⟨?_, ?_, ?_⟩
  · unfold Pool.stocked live
    split_ifs
    · have hgrown : p.grow.slots.toList =
          p.slots.toList ++ List.replicate p.growth (.fresh p.config.rttMaxAge) := by
        unfold grow note
        dsimp only
        rw [Array.toList_append, Array.toList_replicate]
      have hfresh : (List.replicate p.growth (Slot.fresh p.config.rttMaxAge)).filterMap
          Slot.session? = [] := by
        refine List.filterMap_eq_nil_iff.mpr fun a ha => ?_
        rw [List.eq_of_mem_replicate ha]
        rfl
      rw [hgrown, List.filterMap_append, hfresh, List.append_nil]
    · rfl
  · unfold Pool.stocked
    split_ifs <;> rfl
  · obtain ⟨news, hj, hnews⟩ := journal_stocked (p := p)
    exact records_of_plain hj hnews

/-! ## The balance -/

namespace Balanced

theorem new (config : Config) (registry : Registry) : (Pool.new config registry).Balanced where
  twoSided := fun s hs => absurd hs (Multiset.notMem_zero s)
  generation_eq := rfl
  traffic_eq := by rintro (_ | _) <;> rfl

theorem raised (h : p.Balanced) (now : Instant) : (p.raised now).Balanced :=
  ⟨h.twoSided, h.generation_eq, h.traffic_eq⟩

theorem stocked (h : p.Balanced) : p.stocked.Balanced := by
  obtain ⟨hlive, hcounters, hrecords⟩ := books_stocked (p := p)
  have hgen : p.stocked.generation = p.generation := generation_stocked
  refine ⟨?_, ?_, ?_⟩
  · rw [hlive]
    exact h.twoSided
  · rw [hgen, hlive, hrecords]
    exact h.generation_eq
  · rw [hcounters, hlive, hrecords]
    exact h.traffic_eq

/-- A session that is opened has counted nothing. -/
theorem openAt (h : p.Balanced) (hs : p.slots[i]? = some slot) (hnone : slot.session? = none)
    (free : List Nat) (key : Flow) (now : Instant) : (p.openAt i free key now).1.Balanced := by
  obtain ⟨-, -, hcounters, -, hgen, -, -⟩ := openAt_frame (p := p) (i := i) free key now
  have hlive := live_openAt hs hnone free key now
  have hrecords := records_openAt (p := p) i free key now
  refine ⟨fun s hmem => ?_, ?_, fun d => ?_⟩
  · rw [hlive] at hmem
    rcases Multiset.mem_cons.mp hmem with rfl | hold
    · exact .new key now
    · exact h.twoSided s hold
  · rw [hgen, hrecords, hlive, Multiset.card_cons, h.generation_eq, Nat.add_assoc]
  · rw [hcounters, hrecords, hlive, Multiset.map_cons, Multiset.sum_cons, Session.total_new,
      zero_add, h.traffic_eq]

/-- What a turn counts it counts in the session and on the interface. -/
theorem afterTurn (h : p.Balanced) (ho : p.occupant i = some (slot, session))
    (input : Lifecycle.Input) :
    (p.afterTurn i slot (p.turnOf slot session input) input).Balanced := by
  obtain ⟨rest, hbefore, hafter⟩ := live_afterTurn ho (p.turnOf slot session input) input
  have hmem : session ∈ p.live := hbefore ▸ Multiset.mem_cons_self session rest
  have hrecords := records_afterTurn (p := p) i slot session input
  refine ⟨fun s hs => ?_, ?_, fun d => ?_⟩
  · rw [hafter] at hs
    rcases Multiset.mem_cons.mp hs with rfl | hold
    · exact Lifecycle.twoSided_turn _ _ _ (h.twoSided session hmem) input
    · exact h.twoSided s (hbefore ▸ Multiset.mem_cons_of_mem hold)
  · have hcard : (p.afterTurn i slot (p.turnOf slot session input) input).live.card =
        p.live.card := by
      rw [hafter, hbefore, Multiset.card_cons, Multiset.card_cons]
    rw [hrecords, hcard]
    exact h.generation_eq
  · obtain ⟨hsession, hinterface⟩ := Lifecycle.traffic_turn p.config p.registry p.counters
      (l := ⟨session, slot.cache⟩) (h.twoSided session hmem) input d
    have htraffic := h.traffic_eq d
    rw [hbefore, Multiset.map_cons, Multiset.sum_cons] at htraffic
    rw [hrecords, hafter, Multiset.map_cons, Multiset.sum_cons]
    refine hinterface.trans ?_
    unfold turnOf
    rw [hsession, htraffic]
    rw [add_assoc, add_right_comm]

/-- A session that is closed leaves what it has counted in its summary. -/
theorem retire (h : p.Balanced) (ho : p.occupant i = some (slot, session))
    (reason : CloseReason) : (p.retire i slot session reason).Balanced := by
  have hlive := live_retire ho reason
  have hrecords := records_retire (p := p) i slot session reason
  refine ⟨fun s hs => ?_, ?_, fun d => ?_⟩
  · exact h.twoSided s (hlive ▸ Multiset.mem_cons_of_mem hs)
  · have hgen := h.generation_eq
    rw [hlive, Multiset.card_cons] at hgen
    rw [hrecords, List.length_append, List.length_singleton, Nat.add_right_comm, Nat.add_assoc]
    exact hgen
  · have htraffic := h.traffic_eq d
    rw [hlive, Multiset.map_cons, Multiset.sum_cons, ← add_assoc] at htraffic
    rw [hrecords, List.map_append, List.sum_append, List.map_singleton, List.sum_singleton,
      Session.traffic_summary]
    exact htraffic

theorem of_move (h : p.Consistent) (hb : p.Balanced) {s : PoolStep} {q : Pool}
    (hm : Move p s q) : q.Balanced := by
  cases hm with
  | still => exact hb
  | seen => exact hb.raised _
  | starved => exact (hb.raised _).stocked
  | @opened key _ _ now i free hkey hfree =>
    obtain ⟨slot, hs, hidle⟩ := (h.raised now).stocked.idle i (hfree ▸ List.mem_cons_self)
    exact (hb.raised now).stocked.openAt hs hidle.session_eq free key now
  | turned ho => exact hb.afterTurn ho _
  | finished ho => exact (hb.afterTurn ho _).retire (occupant_afterTurn_self ho _ _) _
  | closed ho => exact hb.retire ho _

/-- **Every run keeps the balance.** -/
theorem steps (h : p.Consistent) (hb : p.Balanced) (ss : List PoolStep) :
    (p.steps ss).Balanced := by
  induction ss generalizing p with
  | nil => exact hb
  | cons s ss ih => exact ih (h.step s) (hb.of_move h (h.move s))

end Balanced

/-! ## Counting the open sessions -/

namespace Consistent

/-- A mapped slot holds an open session. -/
theorem occupant_of_mem_active (h : Consistent p) {e : Flow × Nat} (he : e ∈ p.active.toList) :
    ∃ slot session, p.occupant e.2 = some (slot, session) := by
  obtain ⟨slot, session, ho, -⟩ :=
    h.mapped e.1 e.2 (Std.HashMap.mem_toList_iff_getElem?_eq_some.mp he)
  exact ⟨slot, session, ho⟩

/-- There are as many open sessions as connections that are mapped. -/
theorem card_live (h : Consistent p) :
    p.live.card = p.openSessions.length ∧ p.live.card = p.active.size := by
  have hlisted : p.live.card = p.openSessions.length := by
    rw [h.openSessions_perm.length_eq]
    unfold live
    rw [Multiset.coe_card, List.length_filterMap_eq_countP, List.length_filterMap_eq_countP]
    refine List.countP_congr fun slot _ => ?_
    rw [Slot.shown?, Option.isSome_map]
  refine ⟨hlisted, ?_⟩
  rw [hlisted, ← Std.HashMap.length_toList]
  unfold openSessions
  rw [List.length_filterMap_eq_countP, List.countP_eq_length]
  intro e he
  obtain ⟨slot, session, ho⟩ := h.occupant_of_mem_active he
  obtain ⟨hs, hp⟩ := occupant_eq_some.mp ho
  simp [hs, Slot.session?_eq_some.mpr hp]

end Consistent

theorem live_eq_zero (hnone : ∀ i, p.occupant i = none) : p.live = 0 := by
  unfold live
  rw [List.filterMap_eq_nil_iff.mpr]
  · rfl
  · intro slot hmem
    obtain ⟨i, hi, rfl⟩ := List.mem_iff_getElem.mp hmem
    refine occupant_eq_none.mp (hnone i) _ ?_
    rw [← Array.getElem?_toList, List.getElem?_eq_getElem hi]

namespace Consistent

/-! ## Flushing -/

/-- A close from outside ends a session, or comes too late. -/
theorem step_close (h : Consistent p) (i generation : Nat) (reason : CloseReason) :
    (∃ slot session, p.occupant i = some (slot, session) ∧ slot.generation = generation ∧
        p.step (.close i generation reason) = p.retire i slot session reason) ∨
      ((∀ slot session, p.occupant i = some (slot, session) → slot.generation ≠ generation) ∧
        p.step (.close i generation reason) = p) := by
  by_cases hg : ∃ slot session, p.occupant i = some (slot, session) ∧ slot.generation = generation
  · obtain ⟨slot, session, ho, rfl⟩ := hg
    exact Or.inl ⟨slot, session, ho, rfl, h.close_eq ho reason⟩
  · have hother : ∀ slot session, p.occupant i = some (slot, session) →
        slot.generation ≠ generation := fun slot session ho he => hg ⟨slot, session, ho, he⟩
    exact Or.inr ⟨hother, close_eq_self reason hother⟩

/-- Closing some sessions moves them from the open ones to the summaries. -/
theorem books_closes (h : Consistent p) (targets : List (Nat × Nat)) :
    ∃ gone : List Session,
      p.live = gone + (p.steps (targets.map fun t => .close t.1 t.2 .flush)).live ∧
        (p.steps (targets.map fun t => .close t.1 t.2 .flush)).records =
          p.records ++ gone.map (·.summary .flush) := by
  induction targets generalizing p with
  | nil => exact ⟨[], (zero_add _).symm, (List.append_nil _).symm⟩
  | cons t targets ih =>
    obtain ⟨gone, hlive, hrecords⟩ := ih (h.step (.close t.1 t.2 .flush))
    rw [List.map_cons, steps_cons]
    rcases h.step_close t.1 t.2 .flush with ⟨slot, session, ho, -, hstep⟩ | ⟨-, hstep⟩
    · rw [hstep] at hlive hrecords ⊢
      refine ⟨session :: gone, ?_, ?_⟩
      · rw [live_retire ho .flush, hlive, ← Multiset.cons_coe, Multiset.cons_add]
      · rw [hrecords, records_retire, List.append_assoc]
        rfl
    · rw [hstep] at hlive hrecords ⊢
      exact ⟨gone, hlive, hrecords⟩

/-- Who is left after some sessions were closed was there before, and is none of them. -/
theorem occupant_closes (h : Consistent p) {targets : List (Nat × Nat)}
    (ho : (p.steps (targets.map fun t => .close t.1 t.2 .flush)).occupant i =
      some (slot, session)) :
    p.occupant i = some (slot, session) ∧ (i, slot.generation) ∉ targets := by
  induction targets generalizing p with
  | nil => exact ⟨ho, List.not_mem_nil⟩
  | cons t targets ih =>
    rw [List.map_cons, steps_cons] at ho
    obtain ⟨hkept, hnot⟩ := ih (h.step _) ho
    rcases h.step_close t.1 t.2 .flush with ⟨a, s, ha, -, hstep⟩ | ⟨hother, hstep⟩
    · rw [hstep, occupant_retire ha] at hkept
      split_ifs at hkept with hne
      refine ⟨hkept, List.not_mem_cons_of_ne_of_not_mem ?_ hnot⟩
      rintro rfl
      exact hne rfl
    · rw [hstep] at hkept
      refine ⟨hkept, List.not_mem_cons_of_ne_of_not_mem ?_ hnot⟩
      rintro rfl
      exact hother slot session hkept rfl

/-- Every open session is selected once by a flush of everything. -/
theorem length_selected (h : Consistent p) :
    (p.selected fun _ => true).length = p.active.size := by
  unfold selected
  rw [← Std.HashMap.length_toList, List.length_filterMap_eq_countP, List.countP_eq_length]
  intro e he
  obtain ⟨slot, session, ho⟩ := h.occupant_of_mem_active he
  obtain ⟨hs, -⟩ := occupant_eq_some.mp ho
  simp [hs, (h.of_occupant ho).1.owner_eq, isOpen_of_occupant ho]

/-- **A flush of everything** closes every open session, and summarises what it closes. -/
theorem flushAll_books (h : Consistent p) :
    p.flushAll.1.live = 0 ∧ p.flushAll.2 = p.live.card ∧
      ∃ gone : List Session, (gone : Multiset Session) = p.live ∧
        p.flushAll.1.records = p.records ++ gone.map (·.summary .flush) := by
  have hsteps : p.flushAll.1 = p.steps (p.flushSteps fun _ => true) := p.flush_eq_steps _
  have hempty : p.flushAll.1.live = 0 := by
    refine live_eq_zero fun i => Option.eq_none_iff_forall_ne_some.mpr ?_
    rintro ⟨slot, session⟩ ho
    rw [hsteps] at ho
    obtain ⟨hbefore, hnot⟩ := h.occupant_closes ho
    exact hnot ((h.mem_selected hbefore fun _ => true).mpr rfl)
  obtain ⟨gone, hlive, hrecords⟩ := h.books_closes (p.selected fun _ => true)
  refine ⟨hempty, ?_, gone, ?_, ?_⟩
  · rw [h.card_live.2]
    exact h.length_selected
  · -- Nobody is open any more, so those who are gone are those who were open.
    have hfinal : (p.steps ((p.selected fun _ => true).map fun t => .close t.1 t.2 .flush)).live =
        0 := hsteps ▸ hempty
    rw [hlive, hfinal, add_zero]
  · rw [hsteps]
    exact hrecords

end Consistent

end Pool

end FlowWatch
