/-
Connections do not disturb each other.

Two runs that differ in the segments of other connections differ in slots, generations, growth and
the order of the free list, and so there is no simple relation between their pools. But what becomes
of one connection depends on very little: its session, its cache and the last activity of its slot.
`Vigil` is that much, `Vigil.after` says what a call makes of it without a pool, and the pool agrees
with it call by call. A segment of another connection leaves it alone, so such segments can be left
out.
-/
import FlowWatch.Proofs.Pool.Accounting
import FlowWatch.Proofs.Pool.Telling

set_option autoImplicit false

namespace FlowWatch

/-- Whether two flows belong to one connection. -/
def Flow.connects (f g : Flow) : Bool := g == f || g == f.reverse

/-- Whether a segment opens a session when there is none. -/
def Config.admits (config : Config) (s : Segment) : Bool :=
  s.flags.isOpening && !s.flags.isEnding && config.initialPoolCapacity != 0

/-- One call while a capture is read: a segment or a flush. -/
inductive CaptureCall where
  | feed (segment : Segment)
  | flushOlder (cutoff : Instant)
  | flushAll

namespace CaptureCall

/-- The same call among all calls. -/
def call : CaptureCall → TrackerCall
  | .feed s => .feed s
  | .flushOlder cutoff => .flushOlder cutoff
  | .flushAll => .flushAll

/-- Whether the call is about a connection: its own segments, and every flush. -/
def concerns (f : Flow) : CaptureCall → Bool
  | .feed s => f.connects s.flow
  | _ => true

end CaptureCall

/-- What can be known of a connection with an open session. -/
structure Vigil where
  lifecycle : Lifecycle
  lastSeen : Int

namespace Vigil

/-- The vigil of a session that a segment opens. -/
def begin (config : Config) (s : Segment) : Vigil :=
  ⟨Lifecycle.begin config s.flow s.seen, clampInt64 s.seen⟩

/-- The session takes a segment. -/
def hear (config : Config) (registry : Registry) (v : Vigil) (s : Segment) :
    Option Vigil × List Notice :=
  let turn := v.lifecycle.turn config registry {} (.segment s)
  if turn.done then
    (none, turn.notices ++ [.sessionClosed (turn.next.session.summary .finish)])
  else (some ⟨turn.next, max v.lastSeen (clampInt64 s.seen)⟩, turn.notices)

/-- It does not matter which counters of the interface it is heard on. -/
theorem hear_eq (config : Config) (registry : Registry) (counters : Counters) (v : Vigil)
    (s : Segment) :
    v.hear config registry s =
      let turn := v.lifecycle.turn config registry counters (.segment s)
      if turn.done then
        (none, turn.notices ++ [.sessionClosed (turn.next.session.summary .finish)])
      else (some ⟨turn.next, max v.lastSeen (clampInt64 s.seen)⟩, turn.notices) := by
  obtain ⟨hnext, hnotices, hdone⟩ :=
    v.lifecycle.turn_counters config registry counters {} (.segment s)
  unfold hear
  dsimp only
  rw [hnext, hnotices, hdone]

/-- A flush closes the session if its last activity is selected. -/
def flush (select : Int → Bool) : Option Vigil → Option Vigil × List Notice
  | none => (none, [])
  | some v =>
    if select v.lastSeen then (none, [.sessionClosed (v.lifecycle.session.summary .flush)])
    else (some v, [])

/-- What a call that is about a connection makes of it, and what is told of it. -/
def after (config : Config) (registry : Registry) (w : Option Vigil) :
    CaptureCall → Option Vigil × List Notice
  | .feed s =>
    match w with
    | some v => v.hear config registry s
    | none =>
      if config.admits s then
        (begin config s).hear config registry s
      else (none, [])
  | .flushOlder cutoff => flush (fun lastSeen => lastSeen < cutoff) w
  | .flushAll => flush (fun _ => true) w

end Vigil

theorem Flow.connects_iff {f g : Flow} : f.connects g = true ↔ g = f ∨ g = f.reverse := by
  unfold connects
  simp

/-- A session takes the segments of its connection. -/
theorem Session.isSome_route (s : Session) (g : Flow) :
    (s.route g).isSome = s.key.connects g := by
  unfold route Flow.connects
  split_ifs with hrev hkey
  · simp [hrev]
  · simp [hkey]
  · simp [hrev, hkey]

theorem Flow.connects_trans {f g h : Flow} (hfg : f.connects g = true)
    (hgh : g.connects h = true) : f.connects h = true := by
  rw [connects_iff] at hfg hgh ⊢
  rcases hfg with rfl | rfl
  · exact hgh
  · exact hgh.symm

theorem Flow.connects_symm {f g : Flow} (hfg : f.connects g = true) : g.connects f = true := by
  rw [connects_iff] at hfg ⊢
  rcases hfg with rfl | rfl
  · exact Or.inl rfl
  · exact Or.inr f.reverse_reverse.symm

namespace Pool

/-- What can be seen of a connection in a pool. -/
def watch (p : Pool) (f : Flow) : Option Vigil := do
  let i ← p.slotOf f
  let (slot, session) ← p.occupant i
  some ⟨⟨session, slot.cache⟩, slot.lastSeen⟩

/-- What is told of a connection during a list of steps. -/
def toldOf (p : Pool) (f : Flow) (ss : List PoolStep) : List Notice :=
  p.told (fun t => f.connects t.key) ss

variable {p : Pool} {f : Flow} {i : Nat} {slot : Slot} {session : Session}

namespace Consistent

theorem slotOf_iff_connects (h : Consistent p) :
    p.slotOf f = some i ↔
      ∃ slot session, p.occupant i = some (slot, session) ∧ f.connects session.key = true := by
  rw [h.slotOf_eq_some]
  simp only [Flow.connects_iff]

theorem watch_of_occupant (h : Consistent p) (ho : p.occupant i = some (slot, session))
    (hf : f.connects session.key = true) :
    p.watch f = some ⟨⟨session, slot.cache⟩, slot.lastSeen⟩ := by
  unfold watch
  rw [h.slotOf_iff_connects.mpr ⟨slot, session, ho, hf⟩, Option.bind_eq_bind, Option.bind_some, ho]
  rfl

theorem watch_eq_some (h : Consistent p) {v : Vigil} (hv : p.watch f = some v) :
    ∃ i slot session, p.occupant i = some (slot, session) ∧ f.connects session.key = true ∧
      v = ⟨⟨session, slot.cache⟩, slot.lastSeen⟩ := by
  rcases hi : p.slotOf f with _ | i
  · rw [watch, hi] at hv
    exact absurd hv (by simp)
  · obtain ⟨slot, session, ho, hf⟩ := h.slotOf_iff_connects.mp hi
    refine ⟨i, slot, session, ho, hf, ?_⟩
    exact Option.some.inj (hv.symm.trans (h.watch_of_occupant ho hf))

theorem watch_eq_none (h : Consistent p) :
    p.watch f = none ↔
      ∀ i slot session, p.occupant i = some (slot, session) → f.connects session.key = false := by
  constructor
  · intro hn i slot session ho
    refine Bool.eq_false_iff.mpr fun hf => ?_
    rw [h.watch_of_occupant ho hf] at hn
    exact absurd hn (by simp)
  · intro hall
    refine Option.eq_none_iff_forall_ne_some.mpr fun v hv => ?_
    obtain ⟨i, slot, session, ho, hf, -⟩ := h.watch_eq_some hv
    exact absurd hf (by rw [hall i slot session ho]; simp)

/-- A connection has one session at most. -/
theorem connects_inj (h : Consistent p) {j : Nat} {a : Slot} {t : Session}
    (ho : p.occupant i = some (slot, session)) (hf : f.connects session.key = true)
    (hj : p.occupant j = some (a, t)) (hg : f.connects t.key = true) : i = j :=
  Option.some.inj ((h.slotOf_iff_connects.mpr ⟨slot, session, ho, hf⟩).symm.trans
    (h.slotOf_iff_connects.mpr ⟨a, t, hj, hg⟩))

/-! ## One step -/

theorem toldOf_of_not_about {s : PoolStep}
    (hs : ((p.tenantOf s).any fun t => f.connects t.key) = false) (ss : List PoolStep) :
    p.toldOf f (s :: ss) = (p.step s).toldOf f ss := told_of_not_about hs ss

theorem toldOf_of_about {s : PoolStep}
    (hs : ((p.tenantOf s).any fun t => f.connects t.key) = true) (ss : List PoolStep) :
    p.toldOf f (s :: ss) = p.newsOf s ++ (p.step s).toldOf f ss := told_of_about hs ss

/-- A step about another connection, that opens no session of this one, does not show. -/
theorem watch_step (h : Consistent p) {s : PoolStep}
    (hs : ((p.tenantOf s).any fun t => f.connects t.key) = false)
    (hopen : ∀ key o e now, s = .resolve key o e now →
      f.connects key = false ∨ (p.step s).generation = p.generation) :
    (p.step s).watch f = p.watch f := by
  rcases hw : p.watch f with _ | v
  · have hnone := h.watch_eq_none.mp hw
    refine (h.step s).watch_eq_none.mpr fun i slot session ho => ?_
    rcases (h.move s).origin h ho with ⟨a, t, ha, -, hkey⟩ | ⟨key, o, e, now, hs', -, hgen, rfl⟩
    · rw [← hkey]
      exact hnone i a t ha
    · rcases hopen key o e now hs' with hf | hsame
      · exact hf
      · have hle := ((h.step s).of_occupant ho).2.1
        omega
  · obtain ⟨i, slot, session, ho, hf, rfl⟩ := h.watch_eq_some hw
    refine (h.step s).watch_of_occupant ((h.move s).occupant_eq h ho fun ht => ?_) hf
    rw [ht, Option.any_some, hf] at hs
    exact absurd hs (by simp)

theorem not_about_of_watch_none (h : Consistent p) (hw : p.watch f = none) (s : PoolStep) :
    ((p.tenantOf s).any fun t => f.connects t.key) = false := by
  refine Bool.eq_false_iff.mpr fun habout => ?_
  obtain ⟨i, slot, session, ho, hf, -⟩ := exists_of_about habout
  rw [h.watch_eq_none.mp hw i slot session ho] at hf
  exact absurd hf (by simp)

/-- After a step that empties the slot of a connection there is nothing to see of it. -/
theorem watch_of_emptied (h : Consistent p) (ho : p.occupant i = some (slot, session))
    (hf : f.connects session.key = true) {s : PoolStep} (hq : (p.step s).occupant i = none)
    (hs : ∀ key o e now, s ≠ .resolve key o e now) : (p.step s).watch f = none := by
  refine (h.step s).watch_eq_none.mpr fun j a t hj => Bool.eq_false_iff.mpr fun hg => ?_
  rcases (h.move s).origin h hj with ⟨b, u, hb, -, hkey⟩ | ⟨key, o, e, now, hs', -⟩
  · rw [← hkey] at hg
    obtain rfl := h.connects_inj ho hf hb hg
    rw [hq] at hj
    exact absurd hj (by simp)
  · exact hs key o e now hs'

/-- Closing the session of a connection. -/
theorem watch_close (h : Consistent p) (ho : p.occupant i = some (slot, session))
    (hf : f.connects session.key = true) (reason : CloseReason) :
    (p.step (.close i slot.generation reason)).watch f = none ∧
      ∀ ss, p.toldOf f (.close i slot.generation reason :: ss) =
        .sessionClosed (session.summary reason) ::
          (p.step (.close i slot.generation reason)).toldOf f ss := by
  have hstep : p.step (.close i slot.generation reason) = _ := h.close_eq ho reason
  refine ⟨h.watch_of_emptied ho hf ?_ (by simp), fun ss => ?_⟩
  · rw [hstep, occupant_retire ho, if_pos rfl]
  · rw [toldOf_of_about (by rw [tenantOf_close ho, Option.any_some, hf]), h.newsOf_close ho]
    rfl

/-- A segment for the session of a connection. -/
theorem watch_attend (h : Consistent p) (ho : p.occupant i = some (slot, session))
    (hf : f.connects session.key = true) {s : Segment} (hs : f.connects s.flow = true) :
    (p.step (.attend i (.segment s))).watch f =
        (Vigil.hear p.config p.registry ⟨⟨session, slot.cache⟩, slot.lastSeen⟩ s).1 ∧
      p.toldOf f [.attend i (.segment s)] =
        (Vigil.hear p.config p.registry ⟨⟨session, slot.cache⟩, slot.lastSeen⟩ s).2 := by
  have hfor : (Lifecycle.Input.segment s).isFor session = true :=
    (session.isSome_route s.flow).trans (Flow.connects_trans (Flow.connects_symm hf) hs)
  have hhear := Vigil.hear_eq p.config p.registry p.counters
    ⟨⟨session, slot.cache⟩, slot.lastSeen⟩ s
  have hstep : p.step (.attend i (.segment s)) = _ := h.attend_eq ho hfor
  have hnews := h.newsOf_attend ho hfor
  have htold : p.toldOf f [.attend i (.segment s)] = p.newsOf (.attend i (.segment s)) := by
    rw [toldOf_of_about (by rw [tenantOf_attend ho hfor, Option.any_some, hf])]
    exact List.append_nil _
  unfold turnOf at hstep hnews
  rw [htold, hhear, hnews]
  dsimp only at hstep ⊢
  split_ifs at hstep ⊢
  · refine ⟨h.watch_of_emptied ho hf ?_ (by simp), rfl⟩
    rw [hstep, occupant_retire_afterTurn ho, if_pos rfl]
  · have hq : (p.step (.attend i (.segment s))).occupant i = _ :=
      (congrArg (occupant · i) hstep).trans (occupant_afterTurn_self ho _ _)
    refine ⟨(h.step _).watch_of_occupant hq ?_, rfl⟩
    rw [Lifecycle.key_turn]
    exact hf

/-! ## One segment -/

theorem submitSteps_of_occupant (ho : p.occupant i = some (slot, session)) (key : Flow)
    (s : Segment) : p.submitSteps ⟨i, slot.generation, key⟩ s = [.attend i (.segment s)] := by
  obtain ⟨hs, -⟩ := occupant_eq_some.mp ho
  unfold submitSteps accept
  simp only [hs, ne_eq, not_true_eq_false, if_false, isOpen_of_occupant ho, if_true]

/-- A segment of a connection with a session goes to the session. -/
theorem feedSteps_of_occupant (h : Consistent p) (ho : p.occupant i = some (slot, session))
    {s : Segment} (hs : session.key.connects s.flow = true) :
    p.feedSteps s = [.seek s, .attend i (.segment s)] := by
  have hi : p.slotOf s.flow = some i :=
    h.slotOf_iff_connects.mpr ⟨slot, session, ho, Flow.connects_symm hs⟩
  unfold feedSteps
  rw [resolve_of_mapped hi, handleOf_of_occupant ho]
  exact congrArg _ (submitSteps_of_occupant (p := p.raised s.seen) ho session.key s)

/-- A segment that opens nothing goes to nobody. -/
theorem feedSteps_of_unmoved (h : Consistent p) {s : Segment} (hi : p.slotOf s.flow = none)
    (hopen : p.config.admits s = false) :
    p.feedSteps s = [.seek s] ∧ (p.step (.seek s)).generation = p.generation := by
  obtain ⟨⟨-, -, -, hgen⟩, hnone⟩ := h.resolve_unmoved (fun _ => hopen) s.seen
  refine ⟨?_, hgen⟩
  have hhandle := hnone hi
  unfold feedSteps
  revert hhandle
  rcases p.resolve s.flow s.flags.isOpening s.flags.isEnding s.seen with ⟨q, _ | handle⟩
  · exact fun _ => rfl
  · exact fun hsome => absurd hsome (by simp)

/-- A segment that opens a session goes to it. -/
theorem feedSteps_of_opened (h : Consistent p) {s : Segment} (hi : p.slotOf s.flow = none)
    (hopen : p.config.admits s = true) :
    ∃ i slot, p.feedSteps s = [.seek s, .attend i (.segment s)] ∧
      (p.step (.seek s)).occupant i = some (slot, .new s.flow s.seen) ∧
      slot.cache = .new p.config.rttMaxAge ∧ slot.lastSeen = clampInt64 s.seen := by
  obtain ⟨i, slot, hhandle, -, ho, -, -, hcache, hseen⟩ := h.resolve_opened hi hopen s.seen
  refine ⟨i, slot, ?_, ho, hcache, hseen⟩
  unfold feedSteps
  revert hhandle ho
  rcases p.resolve s.flow s.flags.isOpening s.flags.isEnding s.seen with ⟨q, _ | handle⟩
  · exact fun hsome => absurd hsome (by simp)
  · rintro ⟨⟩ ho
    exact congrArg _ (submitSteps_of_occupant ho s.flow s)

/-- Whoever takes a segment of another connection is another connection. -/
theorem not_about_of_other {s : Segment} (hs : f.connects s.flow = false) (i : Nat) :
    ((p.tenantOf (.attend i (.segment s))).any fun t => f.connects t.key) = false := by
  refine Bool.eq_false_iff.mpr fun habout => ?_
  obtain ⟨j, slot, session, -, hf, ⟨input, hinput, hfor⟩ | ⟨reason, hclose⟩⟩ :=
    exists_of_about habout
  · obtain ⟨rfl, rfl⟩ := PoolStep.attend.inj hinput
    have hkey := (session.isSome_route s.flow).symm.trans hfor
    rw [Flow.connects_trans hf hkey] at hs
    exact absurd hs (by simp)
  · exact absurd hclose (by simp)

/-- A segment of another connection does not show. -/
theorem watch_feed_other (h : Consistent p) {s : Segment} (hs : f.connects s.flow = false) :
    (p.steps (p.feedSteps s)).watch f = p.watch f ∧ p.toldOf f (p.feedSteps s) = [] := by
  have hseek := h.watch_step (f := f) (s := .seek s) rfl fun key o e now he =>
    Or.inl ((PoolStep.resolve.inj he).1 ▸ hs)
  have hq := h.step (.seek s)
  have hsteps : p.feedSteps s = [.seek s] ∨
      ∃ i, p.feedSteps s = [.seek s, .attend i (.segment s)] := by
    unfold feedSteps
    rcases p.resolve s.flow s.flags.isOpening s.flags.isEnding s.seen with ⟨q, _ | handle⟩
    · exact Or.inl rfl
    · dsimp only
      unfold submitSteps
      rcases q.accept handle with e | _
      · exact Or.inl rfl
      · exact Or.inr ⟨handle.slot, rfl⟩
  rcases hsteps with hsteps | ⟨i, hsteps⟩
  · rw [hsteps, toldOf_of_not_about rfl]
    exact ⟨hseek, rfl⟩
  · have hother := not_about_of_other (p := p.step (.seek s)) hs i
    have hattend := hq.watch_step hother (by simp)
    rw [hsteps, toldOf_of_not_about rfl, toldOf_of_not_about hother]
    exact ⟨hattend.trans hseek, rfl⟩

/-- A segment of the connection. -/
theorem watch_feed (h : Consistent p) {s : Segment} (hs : f.connects s.flow = true) :
    ((p.steps (p.feedSteps s)).watch f, p.toldOf f (p.feedSteps s)) =
      Vigil.after p.config p.registry (p.watch f) (.feed s) := by
  have hmove := h.move (.seek s)
  have hq := h.step (.seek s)
  obtain ⟨hconfig, hregistry, -⟩ := hmove.frame
  rcases hw : p.watch f with _ | v
  · have hi : p.slotOf s.flow = none := by
      refine Option.eq_none_iff_forall_ne_some.mpr fun i hi => ?_
      obtain ⟨slot, session, ho, hkey⟩ := h.slotOf_iff_connects.mp hi
      rw [h.watch_of_occupant ho (Flow.connects_trans hs hkey)] at hw
      exact absurd hw (by simp)
    rcases hopen : p.config.admits s with _ | _
    · obtain ⟨hsteps, hgen⟩ := h.feedSteps_of_unmoved hi hopen
      have hafter : Vigil.after p.config p.registry none (.feed s) = (none, []) := by
        rw [Vigil.after, hopen, if_neg (by simp)]
      have hwatch := (h.watch_step (f := f) rfl fun _ _ _ _ _ => Or.inr hgen).trans hw
      rw [hsteps, toldOf_of_not_about rfl, hafter]
      exact Prod.ext hwatch rfl
    · obtain ⟨i, slot, hsteps, ho, hcache, hseen⟩ := h.feedSteps_of_opened hi hopen
      have hattend := hq.watch_attend ho hs hs
      rw [hcache, hseen, hconfig, hregistry] at hattend
      have hafter : Vigil.after p.config p.registry none (.feed s) =
          (Vigil.begin p.config s).hear p.config p.registry s := by
        rw [Vigil.after, hopen, if_pos rfl]
      rw [hsteps, toldOf_of_not_about rfl, hafter]
      exact Prod.ext hattend.1 hattend.2
  · obtain ⟨i, slot, session, ho, hf, rfl⟩ := h.watch_eq_some hw
    have hkey := Flow.connects_trans (Flow.connects_symm hf) hs
    have ho' := hmove.occupant_eq h ho (by simp)
    have hattend := hq.watch_attend ho' hf hs
    rw [hconfig, hregistry] at hattend
    rw [h.feedSteps_of_occupant ho hkey, toldOf_of_not_about rfl]
    exact Prod.ext hattend.1 hattend.2

/-! ## One flush -/

/-- Closing some sessions does not show in a connection that has none. -/
theorem watch_closes_of_none (h : Consistent p) (hw : p.watch f = none)
    (targets : List (Nat × Nat)) :
    (p.steps (targets.map fun t => .close t.1 t.2 .flush)).watch f = none ∧
      p.toldOf f (targets.map fun t => .close t.1 t.2 .flush) = [] := by
  induction targets generalizing p with
  | nil => exact ⟨hw, rfl⟩
  | cons t targets ih =>
    have hs := h.not_about_of_watch_none hw (.close t.1 t.2 .flush)
    rw [List.map_cons, toldOf_of_not_about hs]
    exact ih (h.step _) ((h.watch_step hs (by simp)).trans hw)

/-- Closing some sessions closes the one of the connection if it is among them. -/
theorem watch_closes (h : Consistent p) (ho : p.occupant i = some (slot, session))
    (hf : f.connects session.key = true) (targets : List (Nat × Nat)) :
    if (i, slot.generation) ∈ targets then
      (p.steps (targets.map fun t => .close t.1 t.2 .flush)).watch f = none ∧
        p.toldOf f (targets.map fun t => .close t.1 t.2 .flush) =
          [.sessionClosed (session.summary .flush)]
    else
      (p.steps (targets.map fun t => .close t.1 t.2 .flush)).watch f = p.watch f ∧
        p.toldOf f (targets.map fun t => .close t.1 t.2 .flush) = [] := by
  induction targets generalizing p with
  | nil => exact ⟨rfl, rfl⟩
  | cons t targets ih =>
    by_cases ht : (i, slot.generation) = t
    · subst ht
      obtain ⟨hwatch, htold⟩ := h.watch_close ho hf .flush
      obtain ⟨hafter, hsilent⟩ := (h.step _).watch_closes_of_none hwatch targets
      rw [if_pos List.mem_cons_self, List.map_cons, htold, hsilent]
      exact ⟨hafter, rfl⟩
    · have hs : ((p.tenantOf (.close t.1 t.2 .flush)).any fun t => f.connects t.key) = false := by
        refine Bool.eq_false_iff.mpr fun habout => ht ?_
        obtain ⟨j, a, b, hj, hg, ⟨input, hc, -⟩ | ⟨reason, hc⟩⟩ := exists_of_about habout
        · exact absurd hc (by simp)
        · obtain ⟨htj, hta, -⟩ := PoolStep.close.inj hc
          obtain rfl := h.connects_inj ho hf hj hg
          obtain ⟨rfl, rfl⟩ := occupant_unique ho hj
          exact Prod.ext htj.symm hta.symm
      have ho' := (h.move (.close t.1 t.2 .flush)).occupant_eq h ho fun hu => by
        rw [hu, Option.any_some, hf] at hs
        exact absurd hs (by simp)
      have hrest := ih (h.step _) ho'
      rw [h.watch_step hs (by simp)] at hrest
      rw [List.map_cons, toldOf_of_not_about hs]
      simp only [List.mem_cons, ht, false_or]
      exact hrest

theorem watch_flush (h : Consistent p) (select : Int → Bool) :
    ((p.steps (p.flushSteps fun slot => select slot.lastSeen)).watch f,
        p.toldOf f (p.flushSteps fun slot => select slot.lastSeen)) =
      Vigil.flush select (p.watch f) := by
  unfold flushSteps
  rcases hw : p.watch f with _ | v
  · obtain ⟨hwatch, htold⟩ := h.watch_closes_of_none hw (p.selected fun s => select s.lastSeen)
    exact Prod.ext hwatch htold
  · obtain ⟨i, slot, session, ho, hf, rfl⟩ := h.watch_eq_some hw
    have hcloses := h.watch_closes ho hf (p.selected fun s => select s.lastSeen)
    simp only [h.mem_selected ho] at hcloses
    unfold Vigil.flush
    dsimp only
    split_ifs at hcloses ⊢
    · exact Prod.ext hcloses.1 hcloses.2
    · exact Prod.ext (hcloses.1.trans hw) hcloses.2

/-! ## One call -/

/-- A call about the connection is what it is for the vigil. -/
theorem watch_call (h : Consistent p) {c : CaptureCall} (hc : c.concerns f = true) :
    ((p.steps (p.stepsOf c.call)).watch f, p.toldOf f (p.stepsOf c.call)) =
      Vigil.after p.config p.registry (p.watch f) c := by
  cases c with
  | feed s => exact h.watch_feed hc
  | flushOlder cutoff => exact h.watch_flush fun lastSeen => lastSeen < cutoff
  | flushAll => exact h.watch_flush fun _ => true

/-- Every other call is nothing to it. -/
theorem watch_call_other (h : Consistent p) {c : CaptureCall} (hc : c.concerns f = false) :
    (p.steps (p.stepsOf c.call)).watch f = p.watch f ∧ p.toldOf f (p.stepsOf c.call) = [] := by
  cases c with
  | feed s => exact h.watch_feed_other hc
  | flushOlder cutoff => exact absurd hc (by simp [CaptureCall.concerns])
  | flushAll => exact absurd hc (by simp [CaptureCall.concerns])

theorem toldOf_calls (c : CaptureCall) (calls : List CaptureCall) :
    p.toldOf f (p.stepsOfAll ((c :: calls).map CaptureCall.call)) =
      p.toldOf f (p.stepsOf c.call) ++
        (p.steps (p.stepsOf c.call)).toldOf f
          ((p.steps (p.stepsOf c.call)).stepsOfAll (calls.map CaptureCall.call)) :=
  told_append _ _ _

/-- Two pools that look the same to a connection tell the same of it, though one of them leaves out
the calls that are not about it. -/
theorem toldOf_filter {q : Pool} (h : Consistent p) (hq : Consistent q)
    (hconfig : q.config = p.config) (hregistry : q.registry = p.registry)
    (hwatch : q.watch f = p.watch f) (calls : List CaptureCall) :
    q.toldOf f (q.stepsOfAll ((calls.filter (·.concerns f)).map CaptureCall.call)) =
      p.toldOf f (p.stepsOfAll (calls.map CaptureCall.call)) := by
  induction calls generalizing p q with
  | nil => rfl
  | cons c calls ih =>
    obtain ⟨hpconfig, hpregistry⟩ := h.settings_steps (p.stepsOf c.call)
    rcases hc : c.concerns f with _ | _
    · obtain ⟨hsame, hsilent⟩ := h.watch_call_other hc
      rw [List.filter_cons_of_neg (by rw [hc]; simp), toldOf_calls, hsilent]
      exact ih (h.steps _) hq (hconfig.trans hpconfig.symm) (hregistry.trans hpregistry.symm)
        (hwatch.trans hsame.symm)
    · obtain ⟨hqconfig, hqregistry⟩ := hq.settings_steps (q.stepsOf c.call)
      have hboth := hq.watch_call hc
      rw [hconfig, hregistry, hwatch, ← h.watch_call hc] at hboth
      obtain ⟨hsame, htold⟩ := Prod.mk.inj hboth
      rw [List.filter_cons_of_pos hc, toldOf_calls, toldOf_calls, htold]
      refine congrArg _ (ih (h.steps _) (hq.steps _) ?_ ?_ hsame)
      · rw [hqconfig, hpconfig, hconfig]
      · rw [hqregistry, hpregistry, hregistry]

end Consistent

end Pool

/-- **Connections do not disturb each other.** The journal of a run is what its sessions tell and the
pool's own notices between them. Of this, leaving out all segments of other connections changes
nothing that is told of a connection: the same summaries, the same exchanges and the same other
notices of its sessions, in the same order. -/
theorem Tracker.connections_isolated (name : String) (config : Config) (registry : Registry)
    (f : Flow) :
    let start := Pool.new config registry
    let stepsOf := fun calls : List CaptureCall =>
      start.stepsOfAll (calls.map CaptureCall.call)
    (∀ calls, ((Tracker.new name config registry).run
        (calls.map CaptureCall.call)).pool.journal.toList =
          (start.telling (stepsOf calls)).map (·.2)) ∧
      ∀ calls, start.toldOf f (stepsOf (calls.filter (·.concerns f))) =
        start.toldOf f (stepsOf calls) := by
  have h := Pool.Consistent.new config registry
  dsimp only
  refine ⟨fun calls => ?_, h.toldOf_filter h rfl rfl rfl⟩
  rw [pool_run]
  exact h.journal_steps _

end FlowWatch
