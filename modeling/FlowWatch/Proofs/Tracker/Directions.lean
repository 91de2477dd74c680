/-
Which direction a segment is accounted in.

The key of a session is the flow of the segment that opened it, so the sender of this segment is the
client. A segment of the key's reversal comes from the server, and every other segment of the connection
from the client. `Accounts` says what that means: where the interface and the session count it, and
whether it is written to the cache or looked up there.

A connection from an endpoint to itself has one flow in both directions. The reversal is looked at first,
so all its segments, the opening one too, are accounted as the server's.
-/
import FlowWatch.Proofs.Tracker.Termination

set_option autoImplicit false

namespace FlowWatch

namespace Session

variable {s : Session} {flow : Flow}

theorem route_of_reversal (h : flow = s.key.reverse) : s.route flow = some .serverToClient := if_pos h

/-- A flow that opens a session runs from the client, unless it is its own reversal. -/
theorem route_of_key (h : flow = s.key) (hkey : s.key.reverse ≠ s.key) :
    s.route flow = some .clientToServer := by
  unfold route
  rw [h, if_neg (Ne.symm hkey), if_pos rfl]

end Session

namespace Pool

/-- **The session in slot `i` accounts a segment in direction `d`** when it is handed over. -/
structure Accounts (p : Pool) (i : Nat) (slot : Slot) (session : Session) (s : Segment)
    (d : Direction) : Prop where
  /-- The interface counts it in this direction and in no other. -/
  interface : ∀ e, (p.step (.attend i (.segment s))).counters.traffic e =
    p.counters.traffic e + Traffic.ofSegments (if d = e then [s] else [])
  /-- So does the session. -/
  side : ∀ e, ((p.turnOf slot session (.segment s)).next.session.side e).total =
    (session.side e).total + Traffic.ofSegments (if d = e then [s] else [])
  /-- The cache is open. The client's segments are written to it, the server's are looked up. -/
  cache : slot.cache.closed = false ∧ (p.turnOf slot session (.segment s)).next.cache =
    match d with
    | .clientToServer => (slot.cache.push ⟨session.key, s.coveringAck⟩ s.seen).1
    | .serverToClient => (slot.cache.pull ⟨session.key, s.ack⟩).1
  /-- This is how the session stands in its slot afterwards, or in its summary if it is done. -/
  kept : if (p.turnOf slot session (.segment s)).done then
      ∃ earlier : Array Notice, (p.step (.attend i (.segment s))).journal = earlier ++
        #[.sessionClosed ((p.turnOf slot session (.segment s)).next.session.summary .finish)]
    else
      ∃ later, (p.step (.attend i (.segment s))).occupant i =
        some (later, (p.turnOf slot session (.segment s)).next.session) ∧
          later.cache = (p.turnOf slot session (.segment s)).next.cache

variable {p : Pool} {i : Nat} {slot : Slot} {session : Session}

theorem Consistent.accounts (h : Consistent p) (ho : p.occupant i = some (slot, session))
    (htwo : session.TwoSided) (hopen : slot.cache.closed = false) {s : Segment} {d : Direction}
    (hroute : session.route s.flow = some d) : p.Accounts i slot session s d := by
  have hhandles := Lifecycle.handles_of_routed p.config p.registry (l := ⟨session, slot.cache⟩) htwo
    hopen hroute
  have hfor : (Lifecycle.Input.segment s).isFor session = true :=
    Option.isSome_iff_exists.mpr ⟨d, hroute⟩
  have hstep : p.step (.attend i (.segment s)) = _ := h.attend_eq ho hfor
  dsimp only at hstep
  -- Closing the session counts nothing.
  have hcounters : (p.step (.attend i (.segment s))).counters =
      (p.turnOf slot session (.segment s)).counters := by
    rw [hstep]
    split_ifs <;> rfl
  refine ⟨?_, ?_, ?_, ?_⟩
  · intro e
    rw [hcounters]
    exact (hhandles.counted p.counters e).2
  · intro e
    exact (hhandles.counted p.counters e).1
  · refine ⟨hopen, (hhandles.sampled p.counters).1.trans ?_⟩
    unfold Lifecycle.Input.cacheCall?
    dsimp only
    rw [hroute]
    cases d <;> rfl
  · -- A session that is done with this segment is found in its summary, any other in its slot.
    by_cases hdone : (p.turnOf slot session (.segment s)).done = true
    · rw [if_pos hdone]
      rw [if_pos hdone] at hstep
      exact ⟨_, congrArg Pool.journal hstep⟩
    · rw [if_neg hdone]
      rw [if_neg hdone] at hstep
      exact ⟨_, (congrArg (occupant · i) hstep).trans (occupant_afterTurn_self ho _ _), rfl⟩

/-- A session that stands in a slot has the key it was opened under, and its cache is open. -/
theorem occupant_of_opening {config : Config} {registry : Registry} {ss : List PoolStep} {g : Nat}
    {key : Flow} {now : Instant}
    (hopening : (Pool.new config registry).openingOf g ss = some (key, now))
    (ho : ((Pool.new config registry).steps ss).occupant i = some (slot, session))
    (hg : slot.generation = g) :
    session.key = key ∧ session.TwoSided ∧ slot.cache.closed = false := by
  have hlive := ((Consistent.new config registry).steps ss).lifecycle?_eq_some.mpr
    ⟨i, slot, session, ho, hg, rfl⟩
  have halone := (follows_new hopening).eq_of_open hlive
  refine ⟨?_, ?_, ?_⟩
  · exact (congrArg (·.session.key) halone).trans (Lifecycle.key_replay config registry _)
  · have hsession : session = _ := congrArg Lifecycle.session halone
    rw [hsession]
    exact Lifecycle.twoSided_replay config registry (Session.TwoSided.new key now) _
  · exact (congrArg (·.cache.closed) halone).trans (Lifecycle.closed_replay config registry _)

/-- A segment that opens a session is handed to it, and accounted as the client's if the connection is one
between two endpoints. -/
theorem Consistent.accounts_opening (h : Consistent p) {s : Segment} (hi : p.slotOf s.flow = none)
    (hopen : p.config.admits s = true) :
    ∃ i slot, p.feedSteps s = [.seek s, .attend i (.segment s)] ∧
      (p.step (.seek s)).occupant i = some (slot, .new s.flow s.seen) ∧
      (p.step (.seek s)).Accounts i slot (.new s.flow s.seen) s
        (if s.flow.reverse = s.flow then .serverToClient else .clientToServer) := by
  obtain ⟨i, slot, hsteps, ho, hcache, -⟩ := h.feedSteps_of_opened hi hopen
  refine ⟨i, slot, hsteps, ho, ?_⟩
  refine (h.step (.seek s)).accounts ho (.new s.flow s.seen) (by rw [hcache]; rfl) ?_
  by_cases hself : s.flow.reverse = s.flow
  · rw [if_pos hself]
    exact Session.route_of_reversal hself.symm
  · rw [if_neg hself]
    exact Session.route_of_key rfl hself

end Pool

/-- **The first sender is the client of a connection between two endpoints.** In every run of a tracker,
let a generation be opened under a key and stand in a slot. A segment of this flow is accounted from
client to server: the forward side and the transmitted traffic of the interface grow by it, and it is
written to the cache. A segment of the reversed flow is accounted from server to client: the backward side
and the received traffic grow, and the cache is read. If the key is its own reversal, all segments are of
the latter kind. A segment that opens a session is the first that the session accounts. -/
theorem Tracker.directions_by_flow (name : String) (config : Config) (registry : Registry)
    (calls : List TrackerCall) :
    let start := Pool.new config registry
    let ss := start.stepsOfAll calls
    let last := ((Tracker.new name config registry).run calls).pool
    last = start.steps ss ∧
      (∀ g key now, start.openingOf g ss = some (key, now) →
        ∀ i slot session, last.occupant i = some (slot, session) → slot.generation = g →
          session.key = key ∧ ∀ s : Segment,
            (s.flow = key → key.reverse ≠ key → last.Accounts i slot session s .clientToServer) ∧
            (s.flow = key.reverse → last.Accounts i slot session s .serverToClient)) ∧
      ∀ s : Segment, ¬last.HasSession s.flow → config.admits s = true →
        ∃ i slot, last.feedSteps s = [.seek s, .attend i (.segment s)] ∧
          (last.step (.seek s)).occupant i = some (slot, .new s.flow s.seen) ∧
          (last.step (.seek s)).Accounts i slot (.new s.flow s.seen) s
            (if s.flow.reverse = s.flow then .serverToClient else .clientToServer) := by
  intro start ss last
  have hlast : last = start.steps ss := (Tracker.new name config registry).pool_run calls
  have hstart : start.Consistent := Pool.Consistent.new config registry
  have hconsistent : last.Consistent := hlast ▸ hstart.steps ss
  refine ⟨hlast, ?_, ?_⟩
  · intro g key now hopening i slot session ho hg
    obtain ⟨rfl, htwo, hopen⟩ := Pool.occupant_of_opening hopening (hlast ▸ ho) hg
    refine ⟨rfl, fun s => ⟨?_, ?_⟩⟩
    · intro hflow hkey
      exact hconsistent.accounts ho htwo hopen (Session.route_of_key hflow hkey)
    · intro hflow
      exact hconsistent.accounts ho htwo hopen (Session.route_of_reversal hflow)
  · intro s hnone hopen
    have hconfig : last.config = config := by
      rw [hlast]
      exact (hstart.settings_steps ss).1
    have hslot : last.slotOf s.flow = none := not_not.mp (mt hconsistent.hasSession_iff.mpr hnone)
    exact hconsistent.accounts_opening hslot (hconfig.symm ▸ hopen)

/-- A handshake between two endpoints: the client's SYN has been taken, and the server's answer comes. -/
theorem Tracker.directions_of_answer :
    let f : Flow := ⟨.v4 ⟨10, 0, 0, 1⟩, 40000, .v4 ⟨10, 0, 0, 2⟩, 80⟩
    let opening : Segment := ⟨f, { syn := true }, 100, 0, [], 0⟩
    let answer : Segment := ⟨f.reverse, { syn := true, ack := true }, 500, 101, [], 1000⟩
    let confirmation : Segment := ⟨f, { ack := true }, 101, 501, [], 2000⟩
    let last := ((Tracker.new "eth0" {} .standard).run [.feed opening]).pool
    f.reverse ≠ f ∧ ∃ i slot session, last.occupant i = some (slot, session) ∧ session.key = f ∧
      last.Accounts i slot session answer .serverToClient ∧
      last.Accounts i slot session confirmation .clientToServer := by
  intro f opening answer confirmation last
  have hkey : f.reverse ≠ f := by decide
  have hcarried : ∀ s ∈ ([] : List Segment), f.carries s = true := by simp
  obtain ⟨hopening, -, l, hl⟩ := Pool.connection_carried_new {} .standard (s := opening) (by decide)
    hcarried
  obtain ⟨hlast, hopened, -⟩ := Tracker.directions_by_flow "eth0" {} .standard [.feed opening]
  have hlive : last.lifecycle? 1 = some l := (congrArg (Pool.lifecycle? · 1) hlast).trans hl
  obtain ⟨i, slot, session, ho, hg, -⟩ :=
    (consistent_run "eth0" {} .standard [.feed opening]).lifecycle?_eq_some.mp hlive
  obtain ⟨hsame, haccounts⟩ := hopened 1 f 0 hopening i slot session ho hg
  exact ⟨hkey, i, slot, session, ho, hsame, (haccounts answer).2 rfl,
    (haccounts confirmation).1 rfl hkey⟩

/-- The opening segment of a connection from an endpoint to itself is counted as received and not as
transmitted, though its sender is the client. -/
theorem Tracker.self_connection_received :
    let f : Flow := ⟨.v4 ⟨127, 0, 0, 1⟩, 80, .v4 ⟨127, 0, 0, 1⟩, 80⟩
    let opening : Segment := ⟨f, { syn := true }, 100, 0, [], 1700000000000000000⟩
    let start := Pool.new {} .standard
    let ss := start.stepsOfAll [.feed opening]
    let last := ((Tracker.new "eth0" {} .standard).run [.feed opening]).pool
    last = start.steps ss ∧ start.openingOf 1 ss = some (f, opening.seen) ∧
      start.inputsOf 1 ss = [.segment opening] ∧ opening.flow = f ∧
      last.counters.txPackets = 0 ∧ last.counters.rxPackets = 1 ∧
      ∃ l, last.lifecycle? 1 = some l ∧ l.session.forward.total = ⟨0, 0⟩ ∧
        l.session.backward.total = ⟨0, 1⟩ := by
  intro f opening start ss last
  have hlast : last = start.steps ss := (Tracker.new "eth0" {} .standard).pool_run _
  have hstart : start.Consistent := Pool.Consistent.new {} .standard
  have hcarried : ∀ s ∈ ([] : List Segment), f.carries s = true := by simp
  obtain ⟨hopening, hinputs, l, hl⟩ := Pool.connection_carried_new {} .standard (s := opening)
    (by decide) hcarried
  -- What the interface has counted is what the one segment adds to nothing.
  have hnone : start.slotOf opening.flow = none := by simp [start, Pool.slotOf, Pool.new]
  obtain ⟨i, slot, hsteps, -, haccounts⟩ := hstart.accounts_opening hnone (by decide)
  have hcounters : ∀ e, last.counters.traffic e = start.counters.traffic e +
      Traffic.ofSegments (if Direction.serverToClient = e then [opening] else []) := by
    intro e
    have hseek : (start.step (.seek opening)).counters = start.counters := hstart.counters_step rfl
    have hrun : start.steps ss = (start.step (.seek opening)).step (.attend i (.segment opening)) := by
      show start.steps (start.feedSteps opening ++ []) = _
      rw [hsteps]
      rfl
    have hadded := haccounts.interface e
    rw [hseek] at hadded
    rw [hlast, hrun]
    exact hadded
  have htransmitted := hcounters .clientToServer
  have hreceived := hcounters .serverToClient
  -- The session has counted what it was fed.
  have hfollows : start.Follows 1 (Lifecycle.begin {} f opening.seen) ss := Pool.follows_new hopening
  have halone := hfollows.eq_of_open hl
  have hgiven : start.inputsOf 1 ss = [.segment opening] := hinputs
  rw [hgiven] at halone
  have htotal := Lifecycle.total_replay {} .standard (l := Lifecycle.begin {} f opening.seen)
    (Session.TwoSided.new f opening.seen) [.segment opening]
  refine ⟨hlast, hopening, hinputs, rfl, ?_, ?_, l, ?_, ?_, ?_⟩
  · exact congrArg Traffic.packets htransmitted
  · exact congrArg Traffic.packets hreceived
  · rw [hlast]
    exact hl
  · rw [halone]
    exact htotal .clientToServer
  · rw [halone]
    exact htotal .serverToClient

end FlowWatch
