/-
Records and the connections they are of.

A record shows the endpoints of the session that told it (`between_telling`), so records of one pair of
endpoints are records of one connection. How a flush orders its sessions shows in the order of what is
told and in nothing else: no session has a say in what another one tells when it is closed
(`telling_closes`), and no connection has two sessions to close (`targets_alone`).
-/
import FlowWatch.Proofs.Pool.Books
import FlowWatch.Proofs.Pool.Telling
import FlowWatch.Proofs.Session.Figures
import FlowWatch.Proofs.Tracker.Isolation

set_option autoImplicit false

namespace FlowWatch

/-- Whatever record the notice is, it is one of a session with this key. -/
structure Notice.IsBetween (key : Flow) (n : Notice) : Prop where
  summary : ∀ r, n.summary? = some r → r.client = key.sender ∧ r.server = key.receiver
  exchange : ∀ e, n.exchange? = some e → e.client = key.sender ∧ e.server = key.receiver

/-- What a turn tells is about its own session. -/
theorem Lifecycle.between_turn (config : Config) (registry : Registry) (counters : Counters)
    (l : Lifecycle) (input : Input) :
    ∀ n ∈ (l.turn config registry counters input).notices, n.IsBetween l.session.key := by
  obtain ⟨hpairs, -⟩ := pairs_turn config registry counters (l := l) input
  intro n hn
  refine ⟨fun r hr => ?_, fun e he => hpairs.parties e (List.mem_filterMap.mpr ⟨n, hn, he⟩)⟩
  rw [summary?_turn config registry counters l input n hn] at hr
  cases hr

theorem Session.between_summary (s : Session) (reason : CloseReason) :
    (Notice.sessionClosed (s.summary reason)).IsBetween s.key :=
  ⟨fun _ hr => Option.some.inj hr ▸ ⟨rfl, rfl⟩, nofun⟩

namespace Pool

variable {p : Pool} {i : Nat} {slot : Slot} {session : Session}

/-! ## Who is in a record -/

namespace Consistent

/-- A step that is about a session tells of that session. -/
theorem between_step (h : Consistent p) {s : PoolStep} {t : Tenant} (ht : p.tenantOf s = some t) :
    ∀ n ∈ p.newsOf s, n.IsBetween t.key := by
  obtain ⟨i, slot, session, ho, rfl, ⟨input, rfl, hf⟩ | ⟨reason, rfl⟩⟩ := tenantOf_eq_some ht
  · have hturn : ∀ n ∈ (p.turnOf slot session input).notices, n.IsBetween session.key :=
      Lifecycle.between_turn p.config p.registry p.counters ⟨session, slot.cache⟩ input
    have hkey : (p.turnOf slot session input).next.session.key = session.key :=
      Lifecycle.key_turn _ _ _ _ input
    intro n hn
    rw [h.newsOf_attend ho hf] at hn
    dsimp only at hn
    split_ifs at hn
    · rcases List.mem_append.mp hn with hnotice | hclosed
      · exact hturn n hnotice
      · rw [List.mem_singleton.mp hclosed]
        exact hkey ▸ Session.between_summary _ input.reason
    · exact hturn n hn
  · intro n hn
    rw [h.newsOf_close ho reason] at hn
    rw [List.mem_singleton.mp hn]
    exact session.between_summary reason

/-- **Every record shows the endpoints of the session that told it.** -/
theorem between_telling (h : Consistent p) (ss : List PoolStep) {t : Tenant} {n : Notice}
    (hn : (some t, n) ∈ p.telling ss) : n.IsBetween t.key := by
  induction ss generalizing p with
  | nil => exact absurd hn List.not_mem_nil
  | cons s ss ih =>
    rcases List.mem_append.mp hn with hnow | hlater
    · obtain ⟨m, hm, he⟩ := List.mem_map.mp hnow
      obtain ⟨ht, rfl⟩ := Prod.mk.inj he
      exact h.between_step ht m hm
    · exact ih (h.step s) hlater

end Consistent

/-! ## Closing some sessions in some order -/

theorem telling_append (ss ts : List PoolStep) :
    p.telling (ss ++ ts) = p.telling ss ++ (p.steps ss).telling ts := by
  induction ss generalizing p with
  | nil => rfl
  | cons s ss ih =>
    rw [List.cons_append, telling, telling, ih, List.append_assoc]
    rfl

/-- What the session of a target tells when it is closed. -/
def farewell (p : Pool) (target : Nat × Nat) : Option (Option Tenant × Notice) :=
  (p.occupant target.1).map fun o =>
    (some ⟨o.1.generation, o.2.key⟩, .sessionClosed (o.2.summary .flush))

/-- Targets of a flush: open sessions, each one once. -/
structure Targets (p : Pool) (targets : List (Nat × Nat)) : Prop where
  nodup : (targets.map Prod.fst).Nodup
  opened : ∀ t ∈ targets, ∃ slot session, p.occupant t.1 = some (slot, session) ∧
    slot.generation = t.2

namespace Consistent

/-- Sessions that are closed tell what each of them tells alone. -/
theorem telling_closes (h : Consistent p) {targets : List (Nat × Nat)} (ht : p.Targets targets) :
    p.telling (targets.map fun t => .close t.1 t.2 .flush) =
      targets.filterMap p.farewell := by
  induction targets generalizing p with
  | nil => rfl
  | cons t targets ih =>
    obtain ⟨hnodup, hopened⟩ := ht
    rw [List.map_cons, List.nodup_cons] at hnodup
    obtain ⟨⟨slot, session, ho, hg⟩, hothers⟩ := List.forall_mem_cons.mp hopened
    have hstep : p.step (.close t.1 t.2 .flush) = p.retire t.1 slot session .flush :=
      hg ▸ h.close_eq ho .flush
    -- Nobody else moves out.
    have hsame : ∀ u ∈ targets, (p.step (.close t.1 t.2 .flush)).occupant u.1 =
        p.occupant u.1 := by
      intro u hu
      have hne : t.1 ≠ u.1 := fun he => hnodup.1 (he ▸ List.mem_map_of_mem hu)
      rw [hstep, occupant_retire ho, if_neg hne]
    have hrest : (p.step (.close t.1 t.2 .flush)).Targets targets :=
      ⟨hnodup.2, fun u hu => hsame u hu ▸ hothers u hu⟩
    have hnews : (p.newsOf (.close t.1 t.2 .flush)).map (p.tenantOf (.close t.1 t.2 .flush), ·) =
        [(some ⟨slot.generation, session.key⟩, .sessionClosed (session.summary .flush))] := by
      rw [← hg, h.newsOf_close ho, tenantOf_close ho]
      rfl
    have hfarewell : p.farewell t =
        some (some ⟨slot.generation, session.key⟩, .sessionClosed (session.summary .flush)) := by
      rw [farewell, ho]
      rfl
    rw [List.map_cons, telling, hnews, ih (h.step _) hrest, List.filterMap_cons_some hfarewell,
      List.singleton_append, List.cons.injEq]
    exact ⟨rfl, List.filterMap_congr fun u hu => by rw [farewell, farewell, hsame u hu]⟩

/-- A flush has targets, whatever it selects. -/
theorem targets_selected (h : Consistent p) (select : Slot → Bool) :
    p.Targets (p.selected select) := by
  constructor
  · have hsublist : ((p.selected select).map Prod.fst).Sublist p.named := by
      unfold selected named
      generalize p.active.toList = entries
      induction entries with
      | nil => exact List.Sublist.refl _
      | cons e entries ih =>
        rw [List.filterMap_cons, List.map_cons]
        split
        · exact ih.cons _
        · next target hsome =>
          obtain ⟨slot, -, hsome⟩ := Option.bind_eq_some_iff.mp hsome
          obtain ⟨generation, -, hsome⟩ := Option.bind_eq_some_iff.mp hsome
          split_ifs at hsome
          rw [← Option.some.inj hsome, List.map_cons]
          exact ih.cons_cons _
    exact h.named_nodup.sublist hsublist
  · intro t ht
    obtain ⟨⟨key, i⟩, hentry, hsome⟩ := List.mem_filterMap.mp ht
    obtain ⟨slot, session, ho⟩ := h.occupant_of_mem_active hentry
    obtain ⟨a, ha, hsome⟩ := Option.bind_eq_some_iff.mp hsome
    obtain ⟨generation, howner, hsome⟩ := Option.bind_eq_some_iff.mp hsome
    split_ifs at hsome
    obtain rfl := Option.some.inj hsome
    obtain rfl := Option.some.inj (ha.symm.trans (occupant_eq_some.mp ho).1)
    refine ⟨a, session, ho, ?_⟩
    exact Option.some.inj ((h.of_occupant ho).1.owner_eq.symm.trans howner)

/-- Two targets of one connection are the same target. -/
theorem targets_alone (h : Consistent p) {f : Flow} {i j : Nat} {a b : Slot} {s t : Session}
    (hi : p.occupant i = some (a, s)) (hj : p.occupant j = some (b, t))
    (hs : f.connects s.key = true) (ht : f.connects t.key = true) : i = j :=
  Option.some.inj ((h.slotOf_iff_connects.mpr ⟨a, s, hi, hs⟩).symm.trans
    (h.slotOf_iff_connects.mpr ⟨b, t, hj, ht⟩))

end Consistent

end Pool

end FlowWatch
