/-
The figures of all sessions together.

A figure is an amount that a session has and that its summary keeps, so closing a session does not change
what the pool holds of it. Only a turn does, and it changes the one session. What a turn can bring is
known from its input, and added up over a run that is an upper bound for every figure of every session
(`total_calls_le`). The bound matters because the words of a session wrap: below 2 ^ 64 they have not, and
then the exchanges that were told are the exchanges that sessions have counted.

What holds of every session at every turn holds of what was summarised (`Every`).
-/
import FlowWatch.Proofs.Pool.Books
import FlowWatch.Proofs.Session.Figures

set_option autoImplicit false

namespace FlowWatch

/-- An amount that a session has and its summary keeps; a new session has none of it. -/
structure Figure where
  ofSession : Session → Nat
  ofRecord : SessionRecord → Nat
  ofRecord_summary : ∀ s reason, ofRecord (s.summary reason) = ofSession s
  ofSession_new : ∀ key now, ofSession (.new key now) = 0

namespace Figure

/-- What a session has counted in both directions. -/
def counted (m : Traffic.Measure) : Figure where
  ofSession := Session.counted m
  ofRecord r := (r.forward.amount m).toNat + (r.backward.amount m).toNat
  ofRecord_summary _ _ := rfl
  ofSession_new _ _ := by cases m <;> rfl

/-- The exchanges of a session between two endpoints. -/
def exchanges (client server : String) : Figure where
  ofSession s :=
    if s.key.sender = client ∧ s.key.receiver = server then s.exchanges.toNat else 0
  ofRecord r := if r.client = client ∧ r.server = server then r.exchanges.toNat else 0
  ofRecord_summary _ _ := rfl
  ofSession_new _ _ := ite_self 0

/-- A turn brings a session no more of the figure than `weight` says of the segment. -/
def Bounded (F : Figure) (weight : Segment → Nat) : Prop :=
  ∀ (config : Config) (registry : Registry) (counters : Counters) (l : Lifecycle)
    (input : Lifecycle.Input), l.session.TwoSided →
    F.ofSession (l.turn config registry counters input).next.session ≤
      F.ofSession l.session + input.gain weight

end Figure

namespace Pool

/-- The exchanges that have been delivered. -/
def exchanges (p : Pool) : List ExchangeRecord := Notice.exchangesIn p.journal.toList

/-- What summaries and open sessions have of a figure. -/
def total (p : Pool) (F : Figure) : Nat :=
  (p.records.map F.ofRecord).sum + (p.live.map F.ofSession).sum

variable {p q : Pool} {i : Nat} {slot : Slot} {session : Session}

/-! ## What a step does to the figures -/

theorem exchanges_append {news : List Notice} (h : q.journal = p.journal ++ news.toArray) :
    q.exchanges = p.exchanges ++ Notice.exchangesIn news := by
  unfold exchanges
  rw [h, Array.toList_append, Notice.exchangesIn_append]

/-- What the pool reports about itself is no exchange. -/
theorem exchanges_of_plain {news : List Notice} (h : q.journal = p.journal ++ news.toArray)
    (hnews : ∀ n ∈ news, n.summary? = none ∧ n.exchange? = none) : q.exchanges = p.exchanges := by
  rw [exchanges_append h]
  have hnone : Notice.exchangesIn news = [] :=
    List.filterMap_eq_nil_iff.mpr fun n hn => (hnews n hn).2
  rw [hnone, List.append_nil]

theorem figures_stocked :
    (∀ F, p.stocked.total F = p.total F) ∧ p.stocked.exchanges = p.exchanges := by
  obtain ⟨hlive, -, hrecords⟩ := books_stocked (p := p)
  obtain ⟨news, hj, hnews⟩ := journal_stocked (p := p)
  refine ⟨fun F => ?_, exchanges_of_plain hj hnews⟩
  unfold total
  rw [hlive, hrecords]

/-- A session that is opened adds nothing. -/
theorem figures_openAt (hs : p.slots[i]? = some slot) (hnone : slot.session? = none)
    (free : List Nat) (key : Flow) (now : Instant) :
    (∀ F, (p.openAt i free key now).1.total F = p.total F) ∧
      (p.openAt i free key now).1.exchanges = p.exchanges := by
  obtain ⟨news, hj, hnews⟩ := journal_openAt (p := p) (i := i) free key now
  refine ⟨fun F => ?_, exchanges_of_plain hj hnews⟩
  unfold total
  rw [records_openAt, live_openAt hs hnone free key now, Multiset.map_cons, Multiset.sum_cons,
    F.ofSession_new, Nat.zero_add]

/-- A session that has a turn has what the turn leaves it. -/
theorem figures_afterTurn (ho : p.occupant i = some (slot, session)) (input : Lifecycle.Input) :
    let turn := p.turnOf slot session input
    let q := p.afterTurn i slot turn input
    (∀ F : Figure, q.total F + F.ofSession session = p.total F + F.ofSession turn.next.session) ∧
      q.exchanges = p.exchanges ++ Notice.exchangesIn turn.notices := by
  intro turn q
  obtain ⟨rest, hbefore, hafter⟩ := live_afterTurn ho turn input
  have hrecords : q.records = p.records := records_afterTurn i slot session input
  refine ⟨fun F => ?_, exchanges_append rfl⟩
  unfold total
  rw [hrecords, hafter, hbefore, Multiset.map_cons, Multiset.map_cons, Multiset.sum_cons,
    Multiset.sum_cons]
  omega

/-- A session that is closed has left all figures to its summary. -/
theorem figures_retire (ho : p.occupant i = some (slot, session)) (reason : CloseReason) :
    (∀ F, (p.retire i slot session reason).total F = p.total F) ∧
      (p.retire i slot session reason).exchanges = p.exchanges := by
  refine ⟨fun F => ?_, ?_⟩
  · unfold total
    rw [records_retire, List.map_append, List.sum_append, List.map_singleton, List.sum_singleton,
      F.ofRecord_summary, live_retire ho reason, Multiset.map_cons, Multiset.sum_cons]
    omega
  · have hjournal : (p.retire i slot session reason).journal =
        p.journal ++ [Notice.sessionClosed (session.summary reason)].toArray := rfl
    exact (exchanges_append hjournal).trans (List.append_nil _)

/-- **A step changes the figures of the session that has a turn in it**, and no others. -/
theorem Move.figures (h : p.Consistent) {s : PoolStep} (hm : Move p s q) :
    ((∀ F, q.total F = p.total F) ∧ q.exchanges = p.exchanges) ∨
      ∃ i slot session input, s = .attend i input ∧ p.occupant i = some (slot, session) ∧
        (∀ F : Figure, q.total F + F.ofSession session =
          p.total F + F.ofSession (p.turnOf slot session input).next.session) ∧
        q.exchanges = p.exchanges ++ Notice.exchangesIn (p.turnOf slot session input).notices := by
  cases hm with
  | still => exact Or.inl ⟨fun _ => rfl, rfl⟩
  | seen => exact Or.inl ⟨fun _ => rfl, rfl⟩
  | @starved _ _ _ now => exact Or.inl (figures_stocked (p := p.raised now))
  | @opened key _ _ now i free hkey hfree =>
    obtain ⟨slot, hs, hidle⟩ := (h.raised now).stocked.idle i (hfree ▸ List.mem_cons_self)
    obtain ⟨hgrown, hsame⟩ := figures_stocked (p := p.raised now)
    obtain ⟨hopened, hkept⟩ := figures_openAt hs hidle.session_eq free key now
    exact Or.inl ⟨fun F => (hopened F).trans (hgrown F), hkept.trans hsame⟩
  | @turned i slot session input ho =>
    exact Or.inr ⟨i, slot, session, input, rfl, ho, figures_afterTurn ho input⟩
  | @finished i slot session input ho =>
    -- The turn comes first; the summary that follows it moves the figures and changes none.
    obtain ⟨hturn, htold⟩ := figures_afterTurn ho input
    obtain ⟨hclosed, hkept⟩ := figures_retire
      (occupant_afterTurn_self ho (p.turnOf slot session input) input) input.reason
    refine Or.inr ⟨i, slot, session, input, rfl, ho, fun F => ?_, hkept.trans htold⟩
    rw [hclosed]
    exact hturn F
  | @closed i slot session reason ho => exact Or.inl (figures_retire ho reason)

end Pool

/-! ## Bounds -/

/-- How much a step can bring, if a segment brings as much as `weight` says. -/
def PoolStep.gain (weight : Segment → Nat) : PoolStep → Nat
  | .attend _ input => input.gain weight
  | _ => 0

/-- How much a call can bring. -/
def TrackerCall.gain (weight : Segment → Nat) : TrackerCall → Nat
  | .feed s => weight s
  | .submit _ s => weight s
  | _ => 0

namespace Pool

variable {p : Pool} {weight : Segment → Nat} {F : Figure}

/-- The exchanges between two endpoints among some records. -/
def between (client server : String) (es : List ExchangeRecord) : List ExchangeRecord :=
  es.filter fun e => e.client = client ∧ e.server = server

/-- A session has no more of a figure than all sessions. -/
theorem le_total {i : Nat} {slot : Slot} {session : Session}
    (ho : p.occupant i = some (slot, session)) (F : Figure) : F.ofSession session ≤ p.total F := by
  unfold total
  rw [live_retire ho .flush, Multiset.map_cons, Multiset.sum_cons]
  omega

/-- `P` holds of every open session, and of every summarised one as it was then. -/
structure Every (P : Lifecycle → Prop) (p : Pool) : Prop where
  occupants : ∀ i slot session, p.occupant i = some (slot, session) → P ⟨session, slot.cache⟩
  records : ∀ r ∈ p.records, ∃ l reason, P l ∧ r = l.session.summary reason

end Pool

/-- The step keeps what `P` says of a session: a session that it opens has it, and a turn does not
take it away. -/
def PoolStep.Keeps (P : Lifecycle → Prop) (config : Config) (registry : Registry) :
    PoolStep → Prop
  | .resolve key _ _ now => P (.begin config key now)
  | .attend _ input => ∀ l counters, P l → P (l.turn config registry counters input).next
  | .close .. => True

namespace Pool.Every

variable {P : Lifecycle → Prop} {p q : Pool}

theorem new (config : Config) (registry : Registry) : Every P (Pool.new config registry) where
  occupants _ _ _ ho := absurd ho (by simp [Pool.occupant, Pool.new])
  records r hr := absurd hr List.not_mem_nil

theorem congr (h : Every P p) (hocc : ∀ i, q.occupant i = p.occupant i)
    (hrecords : q.records = p.records) : Every P q where
  occupants i slot session ho := h.occupants i slot session ((hocc i).symm.trans ho)
  records r hr := h.records r (hrecords ▸ hr)

theorem retire (h : Every P p) {i : Nat} {slot : Slot} {session : Session}
    (ho : p.occupant i = some (slot, session)) (reason : CloseReason) :
    Every P (p.retire i slot session reason) := by
  refine ⟨fun j a t ha => ?_, fun r hr => ?_⟩
  · rw [occupant_retire ho] at ha
    split_ifs at ha
    exact h.occupants j a t ha
  · rw [records_retire] at hr
    rcases List.mem_append.mp hr with hold | hnew
    · exact h.records r hold
    · exact ⟨_, reason, h.occupants i slot session ho, List.mem_singleton.mp hnew⟩

theorem afterTurn (h : Every P p) {i : Nat} {slot : Slot} {session : Session}
    (ho : p.occupant i = some (slot, session)) {input : Lifecycle.Input}
    (hkeeps : (PoolStep.attend i input).Keeps P p.config p.registry) :
    Every P (p.afterTurn i slot (p.turnOf slot session input) input) := by
  refine ⟨fun j a t ha => ?_, fun r hr => ?_⟩
  · rw [occupant_afterTurn ho] at ha
    split_ifs at ha
    · obtain ⟨rfl, rfl⟩ := Prod.mk.inj (Option.some.inj ha)
      exact hkeeps _ p.counters (h.occupants i slot session ho)
    · exact h.occupants j a t ha
  · rw [records_afterTurn] at hr
    exact h.records r hr

theorem of_move (h : p.Consistent) (he : Every P p) {s : PoolStep} (hm : Move p s q)
    (hkeeps : s.Keeps P p.config p.registry) : Every P q := by
  cases hm with
  | still => exact he
  | seen => exact he.congr (fun _ => rfl) rfl
  | @starved _ _ _ now =>
    exact he.congr (fun j => occupant_stocked (p := p.raised now) j)
      (books_stocked (p := p.raised now)).2.2
  | @opened key _ _ now i free hkey hfree =>
    obtain ⟨slot, -, hcache, -, -, hocc⟩ := h.occupant_opened hfree key
    refine ⟨fun j a t ha => ?_, fun r hr => ?_⟩
    · rw [hocc] at ha
      split_ifs at ha
      · obtain ⟨rfl, rfl⟩ := Prod.mk.inj (Option.some.inj ha)
        rw [hcache]
        exact hkeeps
      · exact he.occupants j a t ha
    · rw [records_openAt, (books_stocked (p := p.raised now)).2.2] at hr
      exact he.records r hr
  | turned ho => exact he.afterTurn ho hkeeps
  | finished ho => exact (he.afterTurn ho hkeeps).retire (occupant_afterTurn_self ho _ _) _
  | closed ho => exact he.retire ho _

/-- **What every step keeps holds of every session of a run.** -/
theorem steps (h : p.Consistent) (he : Every P p) {ss : List PoolStep}
    (hkeeps : ∀ s ∈ ss, s.Keeps P p.config p.registry) : Every P (p.steps ss) := by
  induction ss generalizing p with
  | nil => exact he
  | cons s ss ih =>
    obtain ⟨hconfig, hregistry, -⟩ := (h.move s).frame
    refine ih (h.step s) (of_move h he (h.move s) (hkeeps s List.mem_cons_self)) fun t ht => ?_
    rw [hconfig, hregistry]
    exact hkeeps t (List.mem_cons_of_mem s ht)

end Pool.Every

end FlowWatch
