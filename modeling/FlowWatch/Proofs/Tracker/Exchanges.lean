/-
The exchanges a tracker reports.

A session makes one exchange for each turn of its conversation, and a generation does what a session of
its own does. So the messages that a connection carries come out of the tracker in pairs, whatever else
is in the capture, and whatever comes between the messages on the connection itself.
-/
import FlowWatch.Proofs.Pool.Generations
import FlowWatch.Proofs.Session.Events
import FlowWatch.Proofs.Tracker.Connection

set_option autoImplicit false

namespace FlowWatch

/-- Exchanges come from the inspection of payloads. -/
theorem Notice.filter_isExchange (ns : List Notice) :
    (ns.filter isHeard).filter isExchange = ns.filter isExchange := by
  rw [List.filter_filter]
  apply List.filter_congr
  intro n _
  cases n <;> rfl

/-- A generation tells the exchanges that it makes of the payloads it hears. -/
theorem Pool.Follows.exchanges_eq {p : Pool} {g : Nat} {key : Flow} {now : Instant}
    {ss : List PoolStep} (h : p.Follows g (Lifecycle.begin p.config key now) ss) :
    (p.toldBy g ss).filter Notice.isExchange =
      ((Session.new key now).listen p.config p.registry
        (Lifecycle.heardBy (Session.new key now) (p.inputsOf g ss))).2.filter Notice.isExchange := by
  obtain ⟨-, hheard⟩ := Lifecycle.listen_begin p.config p.registry key now (p.inputsOf g ss)
  have halone := congrArg (List.filter Notice.isExchange) hheard
  rw [Notice.filter_isExchange] at halone
  refine Eq.trans ?_ halone
  rcases h with ⟨-, htold⟩ | ⟨-, reason, htold⟩
  · rw [htold]
  · -- The summary at the end is no exchange.
    rw [htold, List.filter_append]
    exact List.append_nil _

/-- **Every request is paired with its response.** Let the payloads that a session hears, in every run
of a tracker with the built-in decoders, be the turns of a conversation, mixed with others that do not
open like HTTP, and let no more of these than the window allows precede the first request. Then among
all that the journal holds the session tells one exchange for each turn and no other, in their order,
with the method, the target and the host of the request, the status of the response, and the times of
both. -/
theorem Tracker.exchanges_pair_turns (name : String) (config : Config) (calls : List TrackerCall)
    (g : Nat) (key : Flow) (now : Instant) (turns : List HttpTurn) :
    let start := Pool.new config .standard
    let ss := start.stepsOfAll calls
    let last := ((Tracker.new name config .standard).run calls).pool
    let heard := Lifecycle.heardBy (Session.new key now) (start.inputsOf g ss)
    start.openingOf g ss = some (key, now) →
      heard.filter Segment.isHttp = turns.flatMap HttpTurn.segments →
      (turns ≠ [] → (Session.leadOf heard).length ≤ config.maxInspectedSegments.toNat) →
      last.journal.toList = (start.telling ss).map (·.2) ∧
        (start.toldBy g ss).filter Notice.isExchange =
          turns.map fun t => .exchange key t.exchange := by
  intro start ss last heard hopening hmessages hlead
  have hlast : last = start.steps ss := (Tracker.new name config .standard).pool_run calls
  refine ⟨?_, ?_⟩
  · rw [hlast]
    exact (Pool.Consistent.new config .standard).journal_steps ss
  · have hstory := Pool.story_new config .standard g ss
    rw [hopening] at hstory
    have hconversing := Session.Conversing.new key now hmessages hlead
    exact (Pool.Follows.exchanges_eq hstory).trans hconversing.listen

/-- A connection on which a greeting precedes one request and its response. -/
theorem Tracker.one_exchange_after_greeting :
    let f : Flow := ⟨.v4 ⟨10, 0, 0, 1⟩, 40000, .v4 ⟨10, 0, 0, 2⟩, 80⟩
    let one : Http.Component := ⟨false, ['1'], by decide, List.all_eq_true.mp (by decide), by decide⟩
    let version : Http.VersionText := ⟨one, one⟩
    let request : Http.RequestMessage :=
      ⟨['G', 'E', 'T'], by decide, ⟨['/', 'a'], none, .origin ['a'], by decide, by decide⟩, version,
        .returnFeed [13, 10]⟩
    let response : Http.ResponseMessage :=
      ⟨version, ['2', '0', '4'], by decide, List.all_eq_true.mp (by decide), none, by simp,
        .returnFeed [13, 10]⟩
    let opening : Segment := ⟨f, { syn := true }, 100, 0, [], 0⟩
    let greeting : Segment := ⟨f.reverse, { ack := true }, 500, 101, [72, 101, 108, 108, 111], 1000⟩
    let turn : HttpTurn :=
      ⟨request, response, ⟨f, { ack := true }, 101, 505, request.bytes, 3000⟩,
        ⟨f.reverse, { ack := true }, 505, 120, response.bytes, 8000⟩, rfl, rfl⟩
    let calls : List TrackerCall :=
      [opening, greeting, turn.asked, turn.answered].map .feed
    let start := Pool.new {} .standard
    let ss := start.stepsOfAll calls
    start.openingOf 1 ss = some (f, 0) ∧
      Lifecycle.heardBy (Session.new f 0) (start.inputsOf 1 ss) =
        [greeting, turn.asked, turn.answered] ∧
      greeting.isHttp = false ∧ turn.asked.isHttp = true ∧ turn.answered.isHttp = true ∧
      (start.toldBy 1 ss).filter Notice.isExchange = [.exchange f turn.exchange] ∧
      turn.exchange.status = 204 ∧ turn.exchange.requestedAt = 3000 ∧
      turn.exchange.latency = 5000 := by
  intro f one version request response opening greeting turn calls start ss
  have hcarried : ∀ s ∈ [greeting, turn.asked, turn.answered], f.carries s = true := by decide
  obtain ⟨hopening, hinputs, -⟩ := Pool.connection_carried_new {} .standard (s := opening) (by decide)
    hcarried
  have hheard : Lifecycle.heardBy (Session.new f 0) (start.inputsOf 1 ss) =
      [greeting, turn.asked, turn.answered] :=
    congrArg (Lifecycle.heardBy (Session.new f 0)) hinputs
  have hpaired := Tracker.exchanges_pair_turns "eth0" {} calls 1 f 0 [turn] hopening
    (by rw [hheard]; decide) (by rw [hheard]; decide)
  refine ⟨hopening, hheard, by decide, ?_, ?_, hpaired.2, by decide, by decide, by decide⟩
  · exact request.isGated_bytes
  · exact response.isGated_bytes

/-- **The events of a session determine its exchanges.** In every run of a tracker, with any decoders, a
generation that is opened gets one event at most for each payload it hears, and these events have a
pairing: each response belongs to the latest request before it, unless an earlier response came in between
that belongs to a request, and nothing belongs to two pairs. The exchanges that the session tells are
those of the pairs, in the order of the responses, and the session and its summary show their number. If
their protocol is that of a decoder which does not refine, there is one at most. A response without a pair
leaves the session as it was, except that one more payload is inspected. -/
theorem Tracker.exchanges_of_events (name : String) (config : Config) (registry : Registry)
    (calls : List TrackerCall) :
    let start := Pool.new config registry
    let ss := start.stepsOfAll calls
    let last := ((Tracker.new name config registry).run calls).pool
    last = start.steps ss ∧ last.journal.toList = (start.telling ss).map (·.2) ∧
      ∀ g, match start.openingOf g ss with
        | none => start.toldBy g ss = []
        | some (key, now) =>
          let first := Session.new key now
          let heard := Lifecycle.heardBy first (start.inputsOf g ss)
          let events := first.events config registry heard
          start.Follows g (Lifecycle.begin config key now) ss ∧
            ∃ pairs, Pairing events pairs ∧
              (start.toldBy g ss).filter Notice.isExchange =
                pairs.map (fun p => .exchange key p.exchange) ∧
              (∀ l, last.lifecycle? g = some l →
                l.session.exchanges = UInt64.ofNat pairs.length ∧
                  ∀ known, l.session.protocolState.name? = some known →
                    registry.refines known = false → pairs.length ≤ 1) ∧
              (∀ record ∈ start.recordsBy g ss,
                record.exchanges = UInt64.ofNat pairs.length ∧
                  ∀ known, record.protocol = some known →
                    registry.refines known = false → pairs.length ≤ 1) ∧
              ∀ j, ResponseAt events j → (∀ p ∈ pairs, p.answered ≠ j) →
                first.Ignores config registry heard j := by
  intro start ss last
  have hlast : last = start.steps ss := (Tracker.new name config registry).pool_run calls
  refine ⟨hlast, ?_, ?_⟩
  · rw [hlast]
    exact (Pool.Consistent.new config registry).journal_steps ss
  intro g
  rcases hopening : start.openingOf g ss with _ | ⟨key, now⟩
  · exact Pool.toldBy_new hopening
  · have hfollows : start.Follows g (Lifecycle.begin config key now) ss := Pool.follows_new hopening
    obtain ⟨pairs, hpaired, hignored⟩ := Session.exists_paired config registry key now
      (Lifecycle.heardBy (Session.new key now) (start.inputsOf g ss))
    -- The count and the protocol are part of the dialogue, which is made of the payloads alone.
    obtain ⟨hdialogue, -⟩ := Lifecycle.listen_begin config registry key now (start.inputsOf g ss)
    obtain ⟨-, hstate, -, -, hcount⟩ := Dialogue.mk.inj hdialogue
    have hcounted := hcount.trans hpaired.count_eq
    refine ⟨hfollows, pairs, hpaired.pairing, ?_, ?_, ?_, hignored⟩
    · exact hfollows.exchanges_eq.trans hpaired.told_eq
    · intro l hl
      rw [hlast] at hl
      rw [hfollows.eq_of_open hl]
      refine ⟨hcounted, ?_⟩
      intro known hknown hrefines
      exact hpaired.length_le_one ((congrArg _ hstate).symm.trans hknown) hrefines
    · intro record hrecord
      obtain ⟨reason, rfl⟩ := hfollows.eq_of_record hrecord
      refine ⟨hcounted, ?_⟩
      intro known hknown hrefines
      exact hpaired.length_le_one ((congrArg _ hstate).symm.trans hknown) hrefines

end FlowWatch
