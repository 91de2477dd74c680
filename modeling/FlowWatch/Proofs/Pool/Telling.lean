/-
Who in a pool reports what.

The journal of a pool does not say which session a notice comes from. `telling` is the journal with
that written beside each notice: a step has an effect on one session at most, and what the step adds
to the journal comes from there. Growth and figures of the pool come from nobody.

Two facts about one step carry everything about sessions. A step leaves every session alone that it
is not about (`occupant_step`), and who is in a slot after a step was there before or has just been
opened (`occupant_origin`).
-/
import FlowWatch.Proofs.Pool.Consistency

set_option autoImplicit false

namespace FlowWatch

namespace Pool

/-- What a step adds to the journal. -/
def newsOf (p : Pool) (s : PoolStep) : List Notice := (p.step s).journal.toList.drop p.journal.size

/-- What a list of steps adds to the journal, each notice with the session it comes from. -/
def telling (p : Pool) : List PoolStep → List (Option Tenant × Notice)
  | [] => []
  | s :: ss => (p.newsOf s).map (p.tenantOf s, ·) ++ (p.step s).telling ss

/-- What is told by some of the sessions. -/
def told (p : Pool) (about : Tenant → Bool) (ss : List PoolStep) : List Notice :=
  (p.telling ss).filterMap fun e => if e.1.any about then some e.2 else none

variable {p : Pool} {i : Nat} {slot : Slot} {session : Session}

theorem told_cons (about : Tenant → Bool) (s : PoolStep) (ss : List PoolStep) :
    p.told about (s :: ss) =
      (if (p.tenantOf s).any about then p.newsOf s else []) ++ (p.step s).told about ss := by
  unfold told
  rw [telling, List.filterMap_append, List.filterMap_map]
  congr 1
  split_ifs with h
  · have hsome : ((fun e : Option Tenant × Notice => if e.1.any about then some e.2 else none) ∘
        (p.tenantOf s, ·)) = some := by
      funext n
      exact if_pos h
    rw [hsome, List.filterMap_some]
  · have hnone : ((fun e : Option Tenant × Notice => if e.1.any about then some e.2 else none) ∘
        (p.tenantOf s, ·)) = fun _ => none := by
      funext n
      exact if_neg h
    rw [hnone]
    exact List.filterMap_eq_nil_iff.mpr fun _ _ => rfl

theorem told_of_not_about {about : Tenant → Bool} {s : PoolStep}
    (hs : (p.tenantOf s).any about = false) (ss : List PoolStep) :
    p.told about (s :: ss) = (p.step s).told about ss := by
  rw [told_cons, hs]
  rfl

theorem told_of_about {about : Tenant → Bool} {s : PoolStep}
    (hs : (p.tenantOf s).any about = true) (ss : List PoolStep) :
    p.told about (s :: ss) = p.newsOf s ++ (p.step s).told about ss := by
  rw [told_cons, if_pos hs]

theorem told_append (about : Tenant → Bool) (ss ts : List PoolStep) :
    p.told about (ss ++ ts) = p.told about ss ++ (p.steps ss).told about ts := by
  induction ss generalizing p with
  | nil => rfl
  | cons s ss ih =>
    rw [List.cons_append, told_cons, told_cons, ih, List.append_assoc]
    rfl

/-! ## Whom a step is about -/

theorem tenantOf_attend (ho : p.occupant i = some (slot, session)) {input : Lifecycle.Input}
    (hf : input.isFor session = true) :
    p.tenantOf (.attend i input) = some ⟨slot.generation, session.key⟩ := by
  rw [tenantOf, tenantAt, ho, Option.any_some, if_pos hf]
  rfl

theorem tenantOf_close (ho : p.occupant i = some (slot, session)) (reason : CloseReason) :
    p.tenantOf (.close i slot.generation reason) = some ⟨slot.generation, session.key⟩ := by
  rw [tenantOf, tenantAt, ho, Option.any_some, if_pos (beq_self_eq_true _)]
  rfl

theorem tenantAt_eq_some {t : Tenant} (ht : p.tenantAt i = some t) :
    ∃ slot session, p.occupant i = some (slot, session) ∧ t = ⟨slot.generation, session.key⟩ := by
  obtain ⟨⟨slot, session⟩, ho, rfl⟩ := Option.map_eq_some_iff.mp ht
  exact ⟨slot, session, ho, rfl⟩

/-- A step about a session hands it an input that it takes, or closes it. -/
theorem tenantOf_eq_some {s : PoolStep} {t : Tenant} (ht : p.tenantOf s = some t) :
    ∃ i slot session, p.occupant i = some (slot, session) ∧ t = ⟨slot.generation, session.key⟩ ∧
      ((∃ input : Lifecycle.Input, s = .attend i input ∧ input.isFor session = true) ∨
        ∃ reason, s = .close i slot.generation reason) := by
  cases s with
  | resolve => exact absurd ht (by simp [tenantOf])
  | attend i input =>
    rw [tenantOf] at ht
    split_ifs at ht with hf
    obtain ⟨slot, session, ho, rfl⟩ := tenantAt_eq_some ht
    rw [ho, Option.any_some] at hf
    exact ⟨i, slot, session, ho, rfl, Or.inl ⟨input, rfl, hf⟩⟩
  | close i generation reason =>
    rw [tenantOf] at ht
    split_ifs at ht with hg
    obtain ⟨slot, session, ho, rfl⟩ := tenantAt_eq_some ht
    rw [ho, Option.any_some] at hg
    exact ⟨i, slot, session, ho, rfl, Or.inr ⟨reason, by rw [beq_iff_eq.mp hg]⟩⟩

theorem exists_of_about {about : Tenant → Bool} {s : PoolStep}
    (hs : (p.tenantOf s).any about = true) :
    ∃ i slot session, p.occupant i = some (slot, session) ∧
      about ⟨slot.generation, session.key⟩ = true ∧
      ((∃ input : Lifecycle.Input, s = .attend i input ∧ input.isFor session = true) ∨
        ∃ reason, s = .close i slot.generation reason) := by
  obtain ⟨t, ht, hg⟩ := (Option.any_eq_true _ _).mp hs
  obtain ⟨i, slot, session, ho, rfl, hcase⟩ := tenantOf_eq_some ht
  exact ⟨i, slot, session, ho, hg, hcase⟩

/-- The settings never change, and a step gives out one generation at most. -/
theorem Move.frame {s : PoolStep} {q : Pool} (hm : Move p s q) :
    q.config = p.config ∧ q.registry = p.registry ∧ p.generation ≤ q.generation := by
  cases hm with
  | @starved _ _ _ now =>
    unfold stocked
    split_ifs <;> exact ⟨rfl, rfl, Nat.le_refl _⟩
  | @opened key _ _ now i free =>
    obtain ⟨hconfig, hregistry, -, -, hg, -, -⟩ :=
      openAt_frame (p := (p.raised now).stocked) (i := i) free key now
    rw [hconfig, hregistry, hg]
    unfold stocked
    split_ifs <;> exact ⟨rfl, rfl, Nat.le_succ _⟩
  | _ => exact ⟨rfl, rfl, Nat.le_refl _⟩

/-- A step leaves every session alone that it is not about. -/
theorem Move.occupant_eq (h : Consistent p) {s : PoolStep} {q : Pool} (hm : Move p s q)
    (ho : p.occupant i = some (slot, session))
    (hs : p.tenantOf s ≠ some ⟨slot.generation, session.key⟩) :
    q.occupant i = some (slot, session) := by
  cases hm with
  | still => exact ho
  | seen => exact ho
  | starved => exact (occupant_stocked i).trans ho
  | @opened key isOpening isEnding now j free hkey hfree =>
    obtain ⟨a, -, -, -, hnone, hocc⟩ := h.occupant_opened hfree key
    rw [hocc, if_neg ?_, ho]
    rintro rfl
    exact absurd (hnone.symm.trans ho) (by simp)
  | @turned j a t input hj hf =>
    rw [occupant_afterTurn hj, if_neg ?_, ho]
    rintro rfl
    obtain ⟨rfl, rfl⟩ := occupant_unique hj ho
    exact hs (tenantOf_attend hj hf)
  | @finished j a t input hj hf =>
    have hne : j ≠ i := by
      rintro rfl
      obtain ⟨rfl, rfl⟩ := occupant_unique hj ho
      exact hs (tenantOf_attend hj hf)
    rw [occupant_retire_afterTurn hj, if_neg hne, ho]
  | @closed j a t reason hj =>
    rw [occupant_retire hj, if_neg ?_, ho]
    rintro rfl
    obtain ⟨rfl, rfl⟩ := occupant_unique hj ho
    exact hs (tenantOf_close hj reason)

/-- Whoever is in a slot after a step was there before, under the same generation and key, or has
just been opened. -/
theorem Move.origin (h : Consistent p) {s : PoolStep} {q : Pool} (hm : Move p s q)
    (hq : q.occupant i = some (slot, session)) :
    (∃ a t, p.occupant i = some (a, t) ∧ a.generation = slot.generation ∧ t.key = session.key) ∨
      ∃ key isOpening isEnding now, s = .resolve key isOpening isEnding now ∧
        p.slotOf key = none ∧ slot.generation = p.generation + 1 ∧ session = .new key now := by
  cases hm with
  | still => exact Or.inl ⟨slot, session, hq, rfl, rfl⟩
  | seen => exact Or.inl ⟨slot, session, hq, rfl, rfl⟩
  | @starved _ _ _ now =>
    exact Or.inl ⟨slot, session, (occupant_stocked (p := p.raised now) i).symm.trans hq, rfl, rfl⟩
  | @opened key isOpening isEnding now j free hkey hfree =>
    obtain ⟨a, hgen, -, -, -, hocc⟩ := h.occupant_opened hfree key
    rw [hocc] at hq
    split_ifs at hq
    · obtain ⟨rfl, rfl⟩ := Prod.mk.inj (Option.some.inj hq)
      exact Or.inr ⟨key, isOpening, isEnding, now, rfl, hkey, hgen, rfl⟩
    · exact Or.inl ⟨slot, session, hq, rfl, rfl⟩
  | @turned j a t input hj hf =>
    rw [occupant_afterTurn hj] at hq
    split_ifs at hq with hji
    · obtain ⟨rfl, rfl⟩ := Prod.mk.inj (Option.some.inj hq)
      have hkey : (p.turnOf a t input).next.session.key = t.key := Lifecycle.key_turn _ _ _ _ input
      exact Or.inl ⟨a, t, hji ▸ hj, rfl, hkey.symm⟩
    · exact Or.inl ⟨slot, session, hq, rfl, rfl⟩
  | @finished j a t input hj hf =>
    rw [occupant_retire_afterTurn hj] at hq
    split_ifs at hq
    exact Or.inl ⟨slot, session, hq, rfl, rfl⟩
  | @closed j a t reason hj =>
    rw [occupant_retire hj] at hq
    split_ifs at hq
    exact Or.inl ⟨slot, session, hq, rfl, rfl⟩

/-- A generation is given out only when a session is opened, and then session and cache are new. -/
theorem Move.opening (h : Consistent p) {s : PoolStep} {q : Pool} (hm : Move p s q) :
    q.generation = p.generation ∨
      ∃ key isOpening isEnding now i slot, s = .resolve key isOpening isEnding now ∧
        q.generation = p.generation + 1 ∧ q.occupant i = some (slot, .new key now) ∧
        slot.generation = p.generation + 1 ∧ slot.cache = .new p.config.rttMaxAge := by
  cases hm with
  | starved => exact Or.inl generation_stocked
  | @opened key isOpening isEnding now i free hkey hfree =>
    obtain ⟨slot, hgen, hcache, -, -, hocc⟩ := h.occupant_opened hfree key
    have hg : (p.raised now).stocked.generation = p.generation := generation_stocked
    refine Or.inr ⟨key, isOpening, isEnding, now, i, slot, rfl, ?_, ?_, hgen, hcache⟩
    · rw [(openAt_frame free key now).2.2.2.2.1, hg]
    · rw [hocc, if_pos rfl]
  | _ => exact Or.inl rfl

/-! ## What a step adds to the journal -/

theorem newsOf_eq {s : PoolStep} {news : List Notice}
    (h : (p.step s).journal = p.journal ++ news.toArray) : p.newsOf s = news := by
  unfold newsOf
  rw [h, Array.toList_append]
  exact List.drop_left' Array.length_toList

/-- The pool reports about itself when it grows and now and then when it opens a session. -/
theorem journal_stocked : ∃ news : List Notice, p.stocked.journal = p.journal ++ news.toArray ∧
    ∀ n ∈ news, n.summary? = none ∧ n.exchange? = none := by
  unfold stocked
  split_ifs
  · refine ⟨_, rfl, fun n hn => ?_⟩
    rw [List.mem_singleton.mp hn]
    exact ⟨rfl, rfl⟩
  · exact ⟨[], Array.append_empty.symm, fun n hn => absurd hn List.not_mem_nil⟩

theorem journal_openAt (free : List Nat) (key : Flow) (now : Instant) :
    ∃ news : List Notice, (p.openAt i free key now).1.journal = p.journal ++ news.toArray ∧
      ∀ n ∈ news, n.summary? = none ∧ n.exchange? = none := by
  unfold openAt
  dsimp only
  split_ifs
  · refine ⟨_, rfl, fun n hn => ?_⟩
    rw [List.mem_singleton.mp hn]
    exact ⟨rfl, rfl⟩
  · exact ⟨[], Array.append_empty.symm, fun n hn => absurd hn List.not_mem_nil⟩

/-- The journal only grows, and what is in it of nobody is no record. -/
theorem Move.journal {s : PoolStep} {q : Pool} (hm : Move p s q) :
    ∃ news : List Notice, q.journal = p.journal ++ news.toArray ∧
      (p.tenantOf s = none → ∀ n ∈ news, n.summary? = none ∧ n.exchange? = none) := by
  cases hm with
  | still => exact ⟨[], Array.append_empty.symm, fun _ n hn => absurd hn List.not_mem_nil⟩
  | seen => exact ⟨[], Array.append_empty.symm, fun _ n hn => absurd hn List.not_mem_nil⟩
  | @starved _ _ _ now =>
    obtain ⟨news, hj, hnews⟩ := journal_stocked (p := p.raised now)
    exact ⟨news, hj, fun _ => hnews⟩
  | @opened key _ _ now i free =>
    obtain ⟨grown, hgrown, hnone⟩ := journal_stocked (p := p.raised now)
    obtain ⟨news, hj, hnews⟩ := journal_openAt (p := (p.raised now).stocked) (i := i) free key now
    refine ⟨grown ++ news, ?_, fun _ n hn => (List.mem_append.mp hn).elim (hnone n) (hnews n)⟩
    rw [hj, hgrown, ← List.append_toArray, Array.append_assoc]
    rfl
  | turned ho hf =>
    exact ⟨_, rfl, fun ht => absurd ((tenantOf_attend ho hf).symm.trans ht) (by simp)⟩
  | finished ho hf =>
    exact ⟨_, Array.append_assoc.trans (congrArg _ (List.append_toArray _ _)),
      fun ht => absurd ((tenantOf_attend ho hf).symm.trans ht) (by simp)⟩
  | closed ho =>
    exact ⟨_, rfl, fun ht => absurd ((tenantOf_close ho _).symm.trans ht) (by simp)⟩

namespace Consistent

/-- A run keeps the settings. -/
theorem settings_steps (h : Consistent p) (ss : List PoolStep) :
    (p.steps ss).config = p.config ∧ (p.steps ss).registry = p.registry := by
  induction ss generalizing p with
  | nil => exact ⟨rfl, rfl⟩
  | cons s ss ih =>
    obtain ⟨hconfig, hregistry, -⟩ := (h.move s).frame
    obtain ⟨hc, hr⟩ := ih (h.step s)
    exact ⟨hc.trans hconfig, hr.trans hregistry⟩

theorem journal_step (h : Consistent p) (s : PoolStep) :
    (p.step s).journal.toList = p.journal.toList ++ p.newsOf s := by
  obtain ⟨news, hj, -⟩ := (h.move s).journal
  rw [newsOf_eq hj, hj, Array.toList_append]

/-- What comes from nobody is no record. -/
theorem newsOf_of_nobody (h : Consistent p) {s : PoolStep} (ht : p.tenantOf s = none) :
    ∀ n ∈ p.newsOf s, n.summary? = none ∧ n.exchange? = none := by
  obtain ⟨news, hj, hnews⟩ := (h.move s).journal
  rw [newsOf_eq hj]
  exact hnews ht

theorem newsOf_attend (h : Consistent p) (ho : p.occupant i = some (slot, session))
    {input : Lifecycle.Input} (hf : input.isFor session = true) :
    p.newsOf (.attend i input) =
      let turn := p.turnOf slot session input
      if turn.done then
        turn.notices ++ [.sessionClosed (turn.next.session.summary input.reason)]
      else turn.notices := by
  refine newsOf_eq ?_
  rw [Pool.step, h.attend_eq ho hf]
  dsimp only
  split_ifs
  · exact Array.append_assoc.trans (congrArg _ (List.append_toArray _ _))
  · rfl

theorem newsOf_close (h : Consistent p) (ho : p.occupant i = some (slot, session))
    (reason : CloseReason) :
    p.newsOf (.close i slot.generation reason) = [.sessionClosed (session.summary reason)] := by
  refine newsOf_eq ?_
  rw [Pool.step, h.close_eq ho]
  rfl

/-- The journal of a run is what the run tells. -/
theorem journal_steps (h : Consistent p) (ss : List PoolStep) :
    (p.steps ss).journal.toList = p.journal.toList ++ (p.telling ss).map (·.2) := by
  induction ss generalizing p with
  | nil => exact (List.append_nil _).symm
  | cons s ss ih =>
    have hmap : ((p.newsOf s).map (p.tenantOf s, ·)).map (·.2) = p.newsOf s := by
      rw [List.map_map]
      exact List.map_id _
    rw [telling, List.map_append, hmap, ← List.append_assoc, ← h.journal_step s]
    exact ih (h.step s)

/-- In all that is told, what comes from nobody is no record. -/
theorem telling_of_nobody (h : Consistent p) (ss : List PoolStep) :
    ∀ n, (none, n) ∈ p.telling ss → n.summary? = none ∧ n.exchange? = none := by
  induction ss generalizing p with
  | nil => exact fun n hn => absurd hn List.not_mem_nil
  | cons s ss ih =>
    intro n hn
    rw [telling, List.mem_append, List.mem_map] at hn
    rcases hn with ⟨m, hm, he⟩ | hn
    · obtain ⟨ht, rfl⟩ := Prod.mk.inj he
      exact h.newsOf_of_nobody ht m hm
    · exact ih (h.step s) n hn

end Consistent

end Pool

end FlowWatch
