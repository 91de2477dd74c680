/-
A pool does not see where time begins.

A pool keeps the latest activity of every slot and the latest time of all, both in 64-bit words. As long as
the times and the later times fit such words (`Fits`), nothing is clamped, and `delay` commutes with all that
a pool does: opening, closing, handing over segments and ticks. Which slot is taken, which session is found
and what is selected by a flush are the same, and what is reported is later by `d`.

A slot that was never used has no time; what its word holds then is no activity and does not move.
-/
import FlowWatch.Proofs.Session.Delay
import FlowWatch.Proofs.Pool.Steps

set_option autoImplicit false

namespace FlowWatch

variable (d : Span)

/-- A time that fits a signed 64-bit word, now and later by `d`. -/
structure Instant.Fits (t : Instant) : Prop where
  ge : int64Min ≤ t
  le : t ≤ int64Max
  ge_later : int64Min ≤ t + d
  le_later : t + d ≤ int64Max

/-- What fits is not clamped. -/
theorem clampInt64_eq_self {n : Int} (hge : int64Min ≤ n) (hle : n ≤ int64Max) : clampInt64 n = n := by
  unfold clampInt64
  rw [Int.min_eq_right hle, Int.max_eq_right hge]

namespace Instant.Fits

variable {d} {t : Instant}

theorem clamp_eq (h : t.Fits d) : clampInt64 t = t := clampInt64_eq_self h.ge h.le

theorem clamp_later (h : t.Fits d) : clampInt64 (t + d) = clampInt64 t + d := by
  rw [h.clamp_eq, clampInt64_eq_self h.ge_later h.le_later]

end Instant.Fits

/-! ## Slots -/

/-- The phase, with its session later by `d`. -/
def Phase.delay : Phase → Phase
  | .open session => .open (session.delay d)
  | phase => phase

namespace Slot

/-- The slot, with its session and its latest activity later by `d`. -/
def delay (slot : Slot) : Slot :=
  { slot with
    phase := slot.phase.delay d
    cache := slot.cache.delay d
    lastSeen := match slot.phase with
      | .allocated => slot.lastSeen
      | _ => slot.lastSeen + d }

variable (slot : Slot) {config : Config} {registry : Registry} {counters : Counters}

@[simp] theorem fresh_delay (maxAge : Option Span) : (fresh maxAge).delay d = fresh maxAge := by
  unfold delay fresh
  dsimp only
  rw [SeqCache.new_delay]
  rfl

theorem session?_delay : (slot.delay d).session? = slot.session?.map (·.delay d) := by
  unfold session? delay
  rcases slot.phase with _ | session | _ <;> rfl

theorem isOpen_delay : (slot.delay d).isOpen = slot.isOpen := by
  unfold isOpen
  rw [session?_delay, Option.isSome_map]

/-- The word of a slot that is in use moves. -/
theorem lastSeen_delay (h : slot.isOpen = true) : (slot.delay d).lastSeen = slot.lastSeen + d := by
  unfold isOpen session? at h
  unfold delay
  rcases hphase : slot.phase with _ | session | _
  · rw [hphase] at h
    exact absurd h Bool.false_ne_true
  · rfl
  · rfl

theorem openWith_delay {now : Instant} (h : now.Fits d) (key : Flow) (generation : Nat) :
    (slot.delay d).openWith key (now + d) generation = (slot.openWith key now generation).delay d := by
  unfold openWith delay
  rw [h.clamp_later, SeqCache.reopen_delay]
  rfl

/-- What a session leaves behind, later by `d`. -/
def Effect.delay (e : Effect) : Effect := { e with notices := e.notices.map (·.delay d) }

theorem receive_delay (hr : registry.FollowsClock) {s : Segment} (hs : s.seen.Fits d) :
    (slot.delay d).receive config registry counters (s.delay d) =
      ((slot.receive config registry counters s).1.delay d,
        (slot.receive config registry counters s).2.map (·.delay d)) := by
  obtain ⟨_ | session | _, generation, owner, lastSeen, cache⟩ := slot
  · rfl
  · have hflow : (s.delay d).flow = s.flow := rfl
    have hroute : (session.delay d).route s.flow = session.route s.flow := rfl
    have hmax : max (lastSeen + d) (clampInt64 (s.seen + d)) =
        max lastSeen (clampInt64 s.seen) + d := by
      rw [hs.clamp_later]
      exact Int.max_add_right ..
    unfold receive Slot.delay Phase.delay
    dsimp only
    rw [hflow, hroute]
    rcases session.route s.flow with _ | direction
    · rfl
    · dsimp only
      rw [Session.receiveOn_delay d session config hr]
      unfold touch
      dsimp only [Segment.delay]
      rw [hmax]
      rfl
  · rfl

theorem tick_delay {now : Option Instant}
    (h : ∀ session, slot.session? = some session → session.Lasting d config now) :
    (slot.delay d).tick config counters (now.map (· + d)) =
      ((slot.tick config counters now).1.delay d,
        (slot.tick config counters now).2.map (·.delay d)) := by
  obtain ⟨_ | session | _, generation, owner, lastSeen, cache⟩ := slot
  · rfl
  · unfold tick Slot.delay Phase.delay
    dsimp only
    rw [Session.tick_delay d session config cache (h session rfl)]
    rfl
  · rfl

end Slot

/-- What can be seen of a session, later by `d`. -/
def OpenSession.delay (s : OpenSession) : OpenSession :=
  { s with firstSeen := s.firstSeen + d, lastSeen := s.lastSeen + d }

/-! ## The watermark -/

namespace Watermark

/-- The watermark, later by `d`. -/
def delay (w : Watermark) : Watermark := ⟨w.latest.map (· + d)⟩

variable (w : Watermark)

theorem raise_delay {now : Instant} (h : now.Fits d) :
    (w.delay d).raise (now + d) = (w.raise now).delay d := by
  unfold raise delay
  rw [h.clamp_later]
  rcases w.latest with _ | latest
  · rfl
  · have hmax : max (latest + d) (clampInt64 now + d) = max latest (clampInt64 now) + d :=
      Int.max_add_right ..
    dsimp only [Option.map_some]
    rw [hmax]

theorem after_delay (elapsed : Span) : (w.delay d).after elapsed = (w.after elapsed).map (· + d) := by
  unfold after delay
  rcases w.latest with _ | latest
  · rfl
  · exact congrArg some (Int.add_right_comm latest d elapsed)

end Watermark

namespace Pool

/-- The pool, with everything in it and everything it has reported later by `d`. -/
def delay (p : Pool) : Pool :=
  { p with
    slots := p.slots.map (·.delay d)
    watermark := p.watermark.delay d
    journal := p.journal.map (·.delay d) }

variable (p : Pool) (i : Nat)

@[simp] theorem new_delay (config : Config) (registry : Registry) :
    (Pool.new config registry).delay d = .new config registry := by
  unfold delay Pool.new
  dsimp only
  rw [Array.map_empty, Array.map_empty]
  rfl

theorem slots_delay : (p.delay d).slots[i]? = p.slots[i]?.map (·.delay d) := Array.getElem?_map

theorem figures_delay : (p.delay d).figures = p.figures := by
  unfold figures delay
  dsimp only
  rw [Array.size_map]

theorem note_delay (notices : List Notice) :
    (p.delay d).note (notices.map (·.delay d)) = (p.note notices).delay d := by
  have htold : (p.journal ++ notices.toArray).map (·.delay d) =
      p.journal.map (·.delay d) ++ (notices.map (·.delay d)).toArray := by
    rw [Array.map_append, ← List.map_toArray]
  unfold note delay
  dsimp only
  rw [htold]

theorem setSlot_delay (slot : Slot) :
    (p.delay d).setSlot i (slot.delay d) = (p.setSlot i slot).delay d := by
  unfold setSlot delay
  dsimp only
  rw [Array.map_setIfInBounds]

/-- Two changes of a slot that agree up to the delay. -/
theorem modify_delay {f g : Slot → Slot} (h : ∀ slot, g (slot.delay d) = (f slot).delay d) :
    (p.delay d).slots.modify i g = (p.slots.modify i f).map (·.delay d) := by
  refine Array.ext_getElem? fun j => ?_
  rw [Array.getElem?_modify, Array.getElem?_map, slots_delay, Array.getElem?_modify]
  split_ifs
  · rcases p.slots[j]? with _ | slot
    · rfl
    · exact congrArg some (h slot)
  · rfl

theorem handleOf_delay : (p.delay d).handleOf i = p.handleOf i := by
  unfold handleOf
  rw [slots_delay]
  rcases p.slots[i]? with _ | slot
  · rfl
  · simp only [Option.map_some, Option.bind_eq_bind, Option.bind_some, Slot.session?_delay]
    rcases slot.session? with _ | session <;> rfl

/-! ## Opening -/

theorem grow_delay : (p.delay d).grow = p.grow.delay d := by
  have hsize : (p.delay d).slots.size = p.slots.size := Array.size_map
  have hgrowth : (p.delay d).growth = p.growth := by
    unfold growth
    rw [hsize]
    rfl
  have hslots : (p.delay d).slots ++ Array.replicate p.growth (Slot.fresh p.config.rttMaxAge) =
      (p.slots ++ Array.replicate p.growth (Slot.fresh p.config.rttMaxAge)).map (·.delay d) := by
    rw [Array.map_append, Array.map_replicate, Slot.fresh_delay]
    rfl
  have hconfig : (p.delay d).config = p.config := rfl
  unfold grow
  dsimp only
  rw [hsize, hgrowth, hconfig, hslots, ← note_delay]
  rfl

theorem openAt_delay {now : Instant} (h : now.Fits d) (free : List Nat) (key : Flow) :
    (p.delay d).openAt i free key (now + d) =
      ((p.openAt i free key now).1.delay d, (p.openAt i free key now).2) := by
  have hopened : ∀ q : Pool,
      ({ q.delay d with
        slots := (q.delay d).slots.modify i fun slot =>
          slot.openWith key (now + d) (p.generation + 1)
        active := q.active.insert key i } : Pool) =
      ({ q with
        slots := q.slots.modify i fun slot => slot.openWith key now (p.generation + 1)
        active := q.active.insert key i } : Pool).delay d := by
    intro q
    rw [modify_delay d q i fun slot => slot.openWith_delay d h key (p.generation + 1)]
    rfl
  have hfigures : ({ p.delay d with free := free, generation := p.generation + 1 } : Pool).figures =
      ({ p with free := free, generation := p.generation + 1 } : Pool).figures :=
    figures_delay d { p with free := free, generation := p.generation + 1 }
  have hgeneration : (p.delay d).generation = p.generation := rfl
  unfold openAt
  dsimp only at hfigures ⊢
  rw [hgeneration, hfigures]
  split_ifs
  · -- The statistics tell no time.
    refine Prod.ext (Eq.trans ?_ (hopened (note _ _))) rfl
    rw [← note_delay]
    rfl
  · exact Prod.ext (hopened { p with free := free, generation := p.generation + 1 }) rfl

theorem stocked_delay : (p.delay d).stocked = p.stocked.delay d := by
  unfold stocked
  rw [grow_delay, apply_ite (delay d)]
  rfl

/-- A connection is resolved to the same handle. -/
theorem resolve_delay {now : Instant} (h : now.Fits d) (key : Flow) (isOpening isEnding : Bool) :
    (p.delay d).resolve key isOpening isEnding (now + d) =
      ((p.resolve key isOpening isEnding now).1.delay d,
        (p.resolve key isOpening isEnding now).2) := by
  have hraised : (p.delay d).raised (now + d) = (p.raised now).delay d := by
    have hwatermark : (p.delay d).watermark.raise (now + d) = (p.watermark.raise now).delay d :=
      Watermark.raise_delay d p.watermark h
    unfold raised
    rw [hwatermark]
    rfl
  have hslot : (p.delay d).slotOf key = p.slotOf key := rfl
  rcases hk : p.slotOf key with _ | i
  · rw [hk] at hslot
    rcases hopen : isOpening && !isEnding with _ | _
    · rw [resolve_of_refused hk hopen, resolve_of_refused hslot hopen, hraised]
    · have hfree : ((p.raised now).stocked.delay d).free = (p.raised now).stocked.free := rfl
      rw [resolve_of_opening hk hopen, resolve_of_opening hslot hopen, hraised, stocked_delay, hfree]
      rcases (p.raised now).stocked.free with _ | ⟨i, free⟩
      · rfl
      · exact openAt_delay d (p.raised now).stocked i h free key
  · rw [hk] at hslot
    rw [resolve_of_mapped hk, resolve_of_mapped hslot, hraised, handleOf_delay]

/-! ## Closing -/

theorem startClosing_delay (generation : Nat) :
    (p.delay d).startClosing i generation =
      ((p.startClosing i generation).1.delay d,
        (p.startClosing i generation).2.map (·.delay d)) := by
  unfold startClosing
  rw [slots_delay]
  rcases p.slots[i]? with _ | slot
  · rfl
  · have hphase : (slot.delay d).phase = slot.phase.delay d := rfl
    have hgeneration : (slot.delay d).generation = slot.generation := rfl
    dsimp only [Option.map_some]
    rw [hphase, hgeneration]
    rcases hopen : slot.phase with _ | session | _
    · rfl
    · dsimp only [Phase.delay]
      split_ifs
      · have hclosed : ({ slot.delay d with phase := .closed } : Slot) =
            ({ slot with phase := .closed } : Slot).delay d := by
          unfold Slot.delay
          rw [hopen]
          rfl
        exact Prod.ext ((congrArg ((p.delay d).setSlot i) hclosed).trans (setSlot_delay d p i _)) rfl
      · rfl
    · rfl

theorem reclaim_delay (key : Flow) (generation : Nat) :
    (p.delay d).reclaim i key generation = (p.reclaim i key generation).delay d := by
  unfold reclaim
  rw [slots_delay]
  rcases p.slots[i]? with _ | slot
  · rfl
  · have howner : (slot.delay d).owner = slot.owner := rfl
    dsimp only [Option.map_some]
    rw [howner]
    split_ifs
    · have hslots : (p.delay d).slots.setIfInBounds i { slot.delay d with owner := none } =
          (p.slots.setIfInBounds i { slot with owner := none }).map (·.delay d) := by
        rw [Array.map_setIfInBounds]
        rfl
      dsimp only at hslots ⊢
      rw [hslots]
      rfl
    · rfl

theorem clearCache_delay : (p.delay d).clearCache i = (p.clearCache i).delay d := by
  unfold clearCache
  rw [modify_delay d p i (f := fun slot => { slot with cache := slot.cache.shut }) fun slot => ?_]
  · rfl
  · unfold Slot.delay
    dsimp only
    rw [SeqCache.shut_delay]

theorem close_delay (generation : Nat) (reason : CloseReason) :
    (p.delay d).close i generation reason = (p.close i generation reason).delay d := by
  unfold close
  rw [startClosing_delay]
  rcases p.startClosing i generation with ⟨q, _ | session⟩
  · rfl
  · have hnote : [Notice.sessionClosed ((session.delay d).summary reason)] =
        [Notice.sessionClosed (session.summary reason)].map (·.delay d) := by
      rw [Session.summary_delay]
      rfl
    have hkey : (session.delay d).key = session.key := rfl
    dsimp only [Option.map_some]
    rw [clearCache_delay, hnote, note_delay, hkey, reclaim_delay]

/-! ## Segments and ticks -/

/-- A slot that goes through `f` in one pool and through `g` in the later one. -/
theorem settle_withSlot_delay (reason : CloseReason) {f g : Slot → Slot × Option Slot.Effect}
    (h : ∀ slot, p.slots[i]? = some slot →
      g (slot.delay d) = ((f slot).1.delay d, (f slot).2.map (·.delay d))) :
    settle i reason ((p.delay d).withSlot i g) = (settle i reason (p.withSlot i f)).delay d := by
  rw [withSlot_eq, withSlot_eq, slots_delay]
  rcases hslot : p.slots[i]? with _ | slot
  · rfl
  · dsimp only [Option.map_some]
    rw [h slot hslot]
    rcases f slot with ⟨next, _ | effect⟩
    · exact setSlot_delay d p i next
    · have hnoted : ({ (p.delay d).setSlot i (next.delay d) with counters := effect.counters } :
          Pool).note (effect.notices.map (·.delay d)) =
            (({ p.setSlot i next with counters := effect.counters } : Pool).note
              effect.notices).delay d := by
        rw [setSlot_delay]
        exact note_delay d { p.setSlot i next with counters := effect.counters } effect.notices
      dsimp only [Option.map_some, settle, Slot.Effect.delay] at hnoted ⊢
      rw [hnoted]
      split_ifs
      · exact close_delay d _ i _ reason
      · rfl

theorem deliver_delay {s : Segment} (hr : p.registry.FollowsClock) (hs : s.seen.Fits d) :
    (p.delay d).deliver i (s.delay d) = (p.deliver i s).delay d :=
  settle_withSlot_delay d p i .finish fun slot _ => slot.receive_delay d hr hs

theorem tickAfter_delay {elapsed : Span}
    (h : ∀ slot session, p.occupant i = some (slot, session) →
      session.Lasting d p.config (p.watermark.after elapsed)) :
    (p.delay d).tickAfter elapsed i = (p.tickAfter elapsed i).delay d := by
  have hnow : (p.delay d).watermark.after elapsed = (p.watermark.after elapsed).map (· + d) :=
    p.watermark.after_delay d elapsed
  unfold tickAfter
  dsimp only
  rw [hnow]
  refine settle_withSlot_delay d p i .timeout fun slot hslot => slot.tick_delay d fun session hs => ?_
  exact h slot session (occupant_eq_some.mpr ⟨hslot, Slot.session?_eq_some.mp hs⟩)

/-! ## Handles -/

theorem accept_delay (handle : Handle) : (p.delay d).accept handle = p.accept handle := by
  unfold accept
  rw [slots_delay]
  rcases p.slots[handle.slot]? with _ | slot
  · rfl
  · dsimp only [Option.map_some]
    rw [Slot.isOpen_delay]
    rfl

theorem submit_delay {s : Segment} (handle : Handle) (hr : p.registry.FollowsClock)
    (hs : s.seen.Fits d) :
    (p.delay d).submit handle (s.delay d) =
      ((p.submit handle s).1.delay d, (p.submit handle s).2) := by
  unfold submit
  rw [accept_delay]
  rcases p.accept handle with refusal | _
  · rfl
  · dsimp only
    rw [deliver_delay d p handle.slot hr hs]

theorem closeBy_delay (handle : Handle) (reason : CloseReason) :
    (p.delay d).closeBy handle reason =
      ((p.closeBy handle reason).1.delay d, (p.closeBy handle reason).2) := by
  unfold closeBy
  rw [accept_delay]
  rcases p.accept handle with refusal | _
  · rfl
  · dsimp only
    rw [close_delay]

/-! ## Flushing -/

/-- A flush that goes by the later activities selects the same sessions. -/
theorem selected_delay {select later : Slot → Bool}
    (h : ∀ slot : Slot, slot.isOpen = true → later (slot.delay d) = select slot) :
    (p.delay d).selected later = p.selected select := by
  have hactive : (p.delay d).active = p.active := rfl
  unfold selected
  rw [hactive]
  refine List.filterMap_congr ?_
  rintro ⟨key, i⟩ -
  dsimp only
  rw [slots_delay]
  rcases p.slots[i]? with _ | slot
  · rfl
  · have howner : (slot.delay d).owner = slot.owner := rfl
    simp only [Option.map_some, Option.bind_eq_bind, Option.bind_some, howner, Slot.isOpen_delay]
    rcases hopen : slot.isOpen with _ | _
    · rfl
    · rw [h slot hopen]

theorem flushSelected_delay {select later : Slot → Bool}
    (h : ∀ slot : Slot, slot.isOpen = true → later (slot.delay d) = select slot) :
    (p.delay d).flushSelected later =
      ((p.flushSelected select).1.delay d, (p.flushSelected select).2) := by
  have hfold : ∀ (targets : List (Nat × Nat)) (q : Pool),
      targets.foldl (fun r t => r.close t.1 t.2 .flush) (q.delay d) =
        (targets.foldl (fun r t => r.close t.1 t.2 .flush) q).delay d := by
    intro targets
    induction targets with
    | nil => exact fun _ => rfl
    | cons t targets ih =>
      intro q
      rw [List.foldl_cons, List.foldl_cons, close_delay, ih]
  unfold flushSelected
  dsimp only
  rw [selected_delay d p h, hfold]

theorem flushOlder_delay (cutoff : Instant) :
    (p.delay d).flushOlder (cutoff + d) =
      ((p.flushOlder cutoff).1.delay d, (p.flushOlder cutoff).2) := by
  refine flushSelected_delay d p fun slot hopen => decide_eq_decide.mpr ?_
  rw [slot.lastSeen_delay d hopen]
  exact Int.add_lt_add_iff_right d

theorem flushAll_delay :
    (p.delay d).flushAll = (p.flushAll.1.delay d, p.flushAll.2) :=
  flushSelected_delay d p fun _ _ => rfl

theorem openSessions_delay : (p.delay d).openSessions = p.openSessions.map (·.delay d) := by
  have hactive : (p.delay d).active = p.active := rfl
  unfold openSessions
  rw [hactive, List.map_filterMap]
  refine List.filterMap_congr ?_
  rintro ⟨key, i⟩ -
  dsimp only
  rw [slots_delay]
  rcases p.slots[i]? with _ | slot
  · rfl
  · have hseen := slot.lastSeen_delay d
    unfold Slot.isOpen at hseen
    simp only [Option.map_some, Option.bind_eq_bind, Option.bind_some, Slot.session?_delay]
    rcases hs : slot.session? with _ | session
    · rfl
    · rw [hs] at hseen
      simp only [Option.map_some, Option.bind_some, hseen rfl]
      rfl

end Pool

end FlowWatch
