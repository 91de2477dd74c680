/-
Where the times of a run's records come from.

A record in the journal was told by some session, and that session was opened by some segment
(`Pool.exists_teller`). Its summary shows the time of that segment first. An exchange shows the time of
its request, and requests are what decoders have read in payloads, so this too is the time of a segment,
though of another one. A flush of everything at the end leaves no session untold, so the first times that
are shown are the times at which sessions were opened, all of them and no others.
-/
import FlowWatch.Proofs.Session.Events
import FlowWatch.Proofs.Tracker.Exchanges
import FlowWatch.Proofs.Tracker.Totals

set_option autoImplicit false

namespace FlowWatch

/-! ## Requests that decoders read -/

/-- A decoder of the registry reads a request in the payload of the segment. -/
def Registry.Reads (registry : Registry) (segment : Segment) (request : SeenRequest) : Prop :=
  ∃ d ∈ registry.decoders, d.accept? segment.payload segment.seen = some (.request request)

/-- Whoever is asked, the event is that of a registered decoder. -/
theorem Session.Audience.accept?_of_ask {audience : Audience} {registry : Registry}
    {payload : List UInt8} {seen : Instant} {name : String} {event : AppEvent}
    (h : (audience.ask registry payload seen).event = some (name, event)) :
    ∃ d ∈ registry.decoders, d.accept? payload seen = some event := by
  cases audience with
  | all =>
    have hfirst : registry.decoders.findSome? (fun d => (d.accept? payload seen).map (d.name, ·)) =
        some (name, event) := (Registry.event_firstAccepting payload seen _).symm.trans h
    obtain ⟨d, hd, haccept⟩ := List.exists_of_findSome?_eq_some hfirst
    obtain ⟨e, he, heq⟩ := Option.map_eq_some_iff.mp haccept
    exact ⟨d, hd, (Prod.mk.inj heq).2 ▸ he⟩
  | only other =>
    change (registry.offerTo other payload seen).event = _ at h
    unfold Registry.offerTo at h
    rcases hfind : registry.find? other with _ | d
    · rw [hfind] at h
      exact absurd h (by simp)
    · rw [hfind] at h
      obtain ⟨e, he, heq⟩ := Option.map_eq_some_iff.mp h
      exact ⟨d, List.mem_of_find?_eq_some hfind, (Prod.mk.inj heq).2 ▸ he⟩

/-- What a session has for an event was read in a segment that it hears. -/
theorem Session.reads_of_mem_events {config : Config} {registry : Registry} {s : Session}
    {heard : List Segment} {request : SeenRequest}
    (h : some (.request request) ∈ s.events config registry heard) :
    ∃ segment ∈ heard, registry.Reads segment request := by
  induction heard generalizing s with
  | nil => exact absurd h List.not_mem_nil
  | cons segment heard ih =>
    rcases List.mem_cons.mp h with hnow | hlater
    · obtain ⟨audience, -, hanswer⟩ := Option.bind_eq_some_iff.mp hnow.symm
      obtain ⟨⟨name, event⟩, hask, rfl⟩ := Option.map_eq_some_iff.mp hanswer
      exact ⟨segment, List.mem_cons_self, Session.Audience.accept?_of_ask hask⟩
    · obtain ⟨other, hother, hread⟩ := ih hlater
      exact ⟨other, List.mem_cons_of_mem segment hother, hread⟩

theorem Http.seen_of_readPayload {payload : List UInt8} {seen : Instant} {request : SeenRequest} :
    readPayload payload seen = .ok (.request request) → request.seen = seen := by
  unfold readPayload
  simp only [bind, Except.bind, pure, Except.pure]
  rcases (Cursor.new payload).requireLength minimumLength with e | _
  · nofun
  · rcases (Cursor.new payload).opening with e | opening
    · nofun
    · dsimp only
      split_ifs
      · rcases Response.parse payload with e | response <;> nofun
      · rcases Request.parse payload with e | parsed
        · nofun
        · rintro ⟨⟩
          rfl
      · nofun

/-- The built-in decoders give a request the time of its payload. -/
theorem Registry.seen_of_reads {segment : Segment} {request : SeenRequest}
    (h : Registry.standard.Reads segment request) : request.seen = segment.seen := by
  obtain ⟨d, hd, haccept⟩ := h
  obtain rfl := List.mem_singleton.mp hd
  unfold Decoder.accept? Http.decoder at haccept
  dsimp only at haccept
  rcases hread : Http.readPayload segment.payload segment.seen with e | event
  · rw [hread] at haccept
    exact absurd haccept (by simp)
  · rw [hread] at haccept
    obtain rfl := Option.some.inj haccept
    exact Http.seen_of_readPayload hread

namespace Pool

variable {p : Pool} {g : Nat} {config : Config} {registry : Registry} {ss : List PoolStep}
  {key : Flow} {opened : Instant}

/-! ## Who has told a record -/

/-- A generation takes what some step hands over. -/
theorem exists_attend_of_mem_inputsOf {input : Lifecycle.Input} (h : input ∈ p.inputsOf g ss) :
    ∃ i, .attend i input ∈ ss := by
  induction ss generalizing p with
  | nil => exact absurd h List.not_mem_nil
  | cons s ss ih =>
    rw [inputsOf, List.mem_append] at h
    rcases h with hnow | hlater
    · split_ifs at hnow
      · cases s with
        | attend i other =>
          obtain rfl := List.mem_singleton.mp hnow
          exact ⟨i, List.mem_cons_self⟩
        | resolve => exact absurd hnow List.not_mem_nil
        | close => exact absurd hnow List.not_mem_nil
      · exact absurd hnow List.not_mem_nil
    · obtain ⟨i, hi⟩ := ih hlater
      exact ⟨i, List.mem_cons_of_mem s hi⟩

theorem mem_toldBy {n : Notice} : n ∈ p.toldBy g ss ↔ ∃ t, (some t, n) ∈ p.telling ss ∧
    t.generation = g := by
  unfold toldBy told
  rw [List.mem_filterMap]
  constructor
  · rintro ⟨⟨tenant, m⟩, hmem, hsome⟩
    split_ifs at hsome with hg
    obtain rfl := Option.some.inj hsome
    obtain ⟨t, rfl, ht⟩ := (Option.any_eq_true _ _).mp hg
    exact ⟨t, hmem, beq_iff_eq.mp ht⟩
  · rintro ⟨t, hmem, rfl⟩
    exact ⟨(some t, n), hmem, if_pos (beq_self_eq_true _)⟩

/-- **Every record in the journal was told by a generation that was opened.** -/
theorem exists_teller {n : Notice}
    (hn : n ∈ ((Pool.new config registry).steps ss).journal.toList)
    (hrecord : ¬(n.summary? = none ∧ n.exchange? = none)) :
    ∃ g key opened, (Pool.new config registry).openingOf g ss = some (key, opened) ∧
      n ∈ (Pool.new config registry).toldBy g ss := by
  have hstart := Consistent.new config registry
  rw [hstart.journal_steps ss] at hn
  obtain ⟨⟨tenant, _⟩, hmem, rfl⟩ := List.mem_map.mp hn
  rcases tenant with _ | t
  · exact absurd (hstart.telling_of_nobody ss _ hmem) hrecord
  · have htold := mem_toldBy.mpr ⟨t, hmem, rfl⟩
    rcases hopening : (Pool.new config registry).openingOf t.generation ss with _ | ⟨key, opened⟩
    · rw [toldBy_new hopening] at htold
      exact absurd htold List.not_mem_nil
    · exact ⟨t.generation, key, opened, hopening, htold⟩

/-- What a generation tells is in the journal. -/
theorem mem_journal_of_toldBy {n : Notice} (hn : n ∈ (Pool.new config registry).toldBy g ss) :
    n ∈ ((Pool.new config registry).steps ss).journal.toList := by
  obtain ⟨t, hmem, -⟩ := mem_toldBy.mp hn
  rw [(Consistent.new config registry).journal_steps ss]
  exact List.mem_map_of_mem hmem

/-! ## What its times are -/

/-- A summary shows first when its session was opened. -/
theorem firstSeen_of_toldBy (hopening : (Pool.new config registry).openingOf g ss = some (key, opened))
    {r : SessionRecord} (hr : r ∈ (Pool.new config registry).recordsBy g ss) :
    r.firstSeen = .utc opened := by
  obtain ⟨reason, rfl⟩ := (follows_new hopening).eq_of_record hr
  exact congrArg Stamp.utc (Lifecycle.firstSeen_replay _ _ (Lifecycle.begin config key opened) _)

/-- An exchange shows when a request was seen that a decoder has read in a segment. -/
theorem reads_of_toldBy
    (hopening : (Pool.new config registry).openingOf g ss = some (key, opened))
    {n : Notice} (hn : n ∈ (Pool.new config registry).toldBy g ss) {e : ExchangeRecord}
    (he : n.exchange? = some e) :
    ∃ i segment request, .attend i (.segment segment) ∈ ss ∧ registry.Reads segment request ∧
      e.requestedAt = .utc request.seen := by
  obtain ⟨pairs, hpaired, -⟩ := Session.exists_paired config registry key opened
    (Lifecycle.heardBy (Session.new key opened) ((Pool.new config registry).inputsOf g ss))
  have hlistens := (follows_new hopening).exchanges_eq.trans hpaired.told_eq
  have hexchange : n.isExchange = true := by
    cases n with
    | exchange => rfl
    | _ => exact absurd he (by simp [Notice.exchange?])
  have hmem := List.mem_filter.mpr ⟨hn, hexchange⟩
  rw [hlistens] at hmem
  obtain ⟨pair, hpair, rfl⟩ := List.mem_map.mp hmem
  obtain rfl := Option.some.inj he
  -- The request of the pair is one of the events, and so it was read in a segment that was heard.
  obtain ⟨segment, hheard, hread⟩ := Session.reads_of_mem_events
    (List.mem_of_getElem? (hpaired.pairing.request_at pair hpair))
  obtain ⟨input, hinput, hsome⟩ := List.mem_filterMap.mp hheard
  obtain ⟨i, hi⟩ := exists_attend_of_mem_inputsOf hinput
  cases input with
  | tick now => exact absurd hsome (by simp [Lifecycle.Input.heard?])
  | segment other =>
    unfold Lifecycle.Input.heard? at hsome
    dsimp only at hsome
    split_ifs at hsome
    obtain rfl := Option.some.inj hsome
    exact ⟨i, other, pair.request, hi, hread, rfl⟩

end Pool

/-! ## A flushed run -/

namespace Tracker

variable (name : String) (config : Config) (registry : Registry)

/-- **The first times that a flushed run shows are those at which it has opened sessions.** -/
theorem firstSeen_flushed (calls : List TrackerCall) (opened : Instant) :
    let start := Pool.new config registry
    let ss := start.stepsOfAll (calls ++ [TrackerCall.flushAll])
    (∃ r ∈ (flushed name config registry calls).pool.records, r.firstSeen = .utc opened) ↔
      ∃ g key, start.openingOf g ss = some (key, opened) := by
  intro start ss
  have hlast : (flushed name config registry calls).pool = start.steps ss :=
    pool_flushed name config registry calls
  rw [hlast]
  constructor
  · rintro ⟨r, hr, hfirst⟩
    obtain ⟨n, hn, hsummary⟩ := List.mem_filterMap.mp hr
    obtain ⟨g, key, now, hopening, htold⟩ := Pool.exists_teller hn (by simp [hsummary])
    have hown := Pool.firstSeen_of_toldBy hopening (List.mem_filterMap.mpr ⟨n, htold, hsummary⟩)
    obtain rfl := congrArg Stamp.instant (hown.symm.trans hfirst)
    exact ⟨g, key, hopening⟩
  · rintro ⟨g, key, hopening⟩
    rcases Pool.recordsBy_new hopening with ⟨hopen, -, -⟩ | ⟨-, r, hone, -⟩
    · -- After the flush nothing is open any more.
      obtain ⟨l, hl⟩ := Option.isSome_iff_exists.mp hopen
      have hconsistent := (Pool.Consistent.new config registry).steps ss
      obtain ⟨i, slot, session, ho, -⟩ := hconsistent.lifecycle?_eq_some.mp hl
      have hmem := Pool.mem_live ho
      have hempty := live_flushed name config registry calls
      rw [hlast] at hempty
      rw [hempty] at hmem
      exact absurd hmem (Multiset.notMem_zero session)
    · have hr : r ∈ start.recordsBy g ss := hone ▸ List.mem_singleton_self r
      obtain ⟨n, htold, hsummary⟩ := List.mem_filterMap.mp hr
      exact ⟨r, List.mem_filterMap.mpr ⟨n, Pool.mem_journal_of_toldBy htold, hsummary⟩,
        Pool.firstSeen_of_toldBy hopening hr⟩

/-- **Every exchange of a paced run was requested in one of its segments.** -/
theorem exchanges_requested {segments : List Segment} {calls : List TrackerCall}
    (h : Paces segments calls) :
    ∀ e ∈ (flushed name config registry calls).pool.exchanges,
      ∃ segment ∈ segments, ∃ request, registry.Reads segment request ∧
        e.requestedAt = .utc request.seen := by
  intro e he
  obtain ⟨n, hn, hexchange⟩ := List.mem_filterMap.mp he
  rw [pool_flushed] at hn
  obtain ⟨g, key, opened, hopening, htold⟩ := Pool.exists_teller hn (by simp [hexchange])
  obtain ⟨i, segment, request, hstep, hread, hrequested⟩ :=
    Pool.reads_of_toldBy hopening htold hexchange
  refine ⟨segment, ?_, request, hread, hrequested⟩
  rcases h.of_mem_steps _ hstep with ⟨s, hs, hlook | ⟨j, hhanded⟩⟩ | ⟨j, now, htick⟩ | ⟨j, k, hclose⟩
  · exact absurd hlook (by simp [PoolStep.seek])
  · obtain ⟨-, hinput⟩ := PoolStep.attend.inj hhanded
    obtain rfl := Lifecycle.Input.segment.inj hinput
    exact hs
  · exact absurd htick (by simp)
  · exact absurd hclose (by simp)

end Tracker

end FlowWatch
