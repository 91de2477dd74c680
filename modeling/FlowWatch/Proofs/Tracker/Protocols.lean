/-
The protocols a tracker reports.

What a generation tells of its protocol is what the payloads settle that it was fed: the first request
within the window, seen by the first decoder that accepts the payload. Neither the other sessions nor the
slot, and neither ticks nor the sequence cache have a say in it.
-/
import FlowWatch.Proofs.Pool.Generations
import FlowWatch.Proofs.Session.Protocol
import FlowWatch.Proofs.Tracker.Connection
import FlowWatch.Proofs.Session.Samples

set_option autoImplicit false

namespace FlowWatch

namespace Lifecycle

variable {config : Config} {registry : Registry}

/-- The protocol of a session, from the payloads it has heard. -/
theorem protocol_replay (registry : Registry) (key : Flow) (now : Instant)
    (hw : config.maxInspectedSegments < 4294967295) (inputs : List Input) :
    let first := begin config key now
    let last := (first.replay config registry inputs).1.session
    let protocol := Session.protocolOf config registry (heardBy first.session inputs)
    last.protocolState.name? = protocol ∧ (last.exchanges ≠ 0 → protocol.isSome) := by
  obtain ⟨hdialogue, -⟩ := listen_begin config registry key now inputs
  obtain ⟨-, hstate, -, -, hexchanges⟩ := Dialogue.mk.inj hdialogue
  obtain ⟨hname, hsome⟩ := Session.protocol_listen registry key now hw
    (heardBy (Session.new key now) inputs)
  dsimp only at hname hsome ⊢
  rw [hstate, hexchanges]
  exact ⟨hname, hsome⟩

/-- A protocol that is known is not lost and does not change, whatever comes later. -/
theorem protocol_after (key : Flow) (now : Instant) (inputs : List Input) {j k : Nat} (hjk : j ≤ k)
    {name : String}
    (hj : ((begin config key now).after config registry inputs j).session.protocolState.name? =
      some name) :
    ((begin config key now).after config registry inputs k).session.protocolState.name? =
      some name := by
  have hsplit : inputs.take k = inputs.take j ++ (inputs.take k).drop j := by
    have htake : (inputs.take k).take j = inputs.take j := by
      rw [List.take_take, Nat.min_eq_left hjk]
    rw [← htake, List.take_append_drop]
  have hstate : ∀ n, ((begin config key now).after config registry inputs n).session.protocolState =
      ((Session.new key now).listen config registry
        (heardBy (Session.new key now) (inputs.take n))).1.protocolState := by
    intro n
    obtain ⟨hdialogue, -⟩ := listen_begin config registry key now (inputs.take n)
    exact (Dialogue.mk.inj hdialogue).2.1
  rw [hstate] at hj ⊢
  rw [hsplit, heardBy_append, Session.listen_append]
  exact Session.name?_listen hj _

end Lifecycle

/-- **The first request names the protocol of a session.** In every run of a tracker, a generation that
is opened has the protocol that the payloads settle which it has heard: the name of the decoder that
saw the first request within the window, the window being one payload longer than its setting. It shows
in the open session and in the summary, and there is no exchange without it. A protocol once known
stays the same whatever the session is fed later. -/
theorem Tracker.protocol_of_first_request (name : String) (config : Config) (registry : Registry)
    (hw : config.maxInspectedSegments < 4294967295) (calls : List TrackerCall) :
    let start := Pool.new config registry
    let ss := start.stepsOfAll calls
    let last := ((Tracker.new name config registry).run calls).pool
    last = start.steps ss ∧
      ∀ g, match start.openingOf g ss with
        | none => start.toldBy g ss = []
        | some (key, now) =>
          let first := Lifecycle.begin config key now
          let inputs := start.inputsOf g ss
          let protocol :=
            Session.protocolOf config registry (Lifecycle.heardBy first.session inputs)
          start.Follows g first ss ∧
            (∀ l, last.lifecycle? g = some l → l.session.protocolState.name? = protocol ∧
              (l.session.exchanges ≠ 0 → protocol.isSome)) ∧
            (∀ record ∈ start.recordsBy g ss, record.protocol = protocol ∧
              (record.exchanges ≠ 0 → record.protocol.isSome)) ∧
            ∀ (j k : Nat) (known : String), j ≤ k →
              (first.after config registry inputs j).session.protocolState.name? = some known →
                (first.after config registry inputs k).session.protocolState.name? = some known := by
  have hlast := (Tracker.new name config registry).pool_run calls
  dsimp only
  refine ⟨hlast, ?_⟩
  intro g
  have hstory := Pool.story_new config registry g ((Pool.new config registry).stepsOfAll calls)
  rcases hopening : (Pool.new config registry).openingOf g
      ((Pool.new config registry).stepsOfAll calls) with _ | ⟨key, now⟩
  · rw [hopening] at hstory
    exact hstory
  · rw [hopening] at hstory
    obtain ⟨hname, hsome⟩ := Lifecycle.protocol_replay registry key now hw
      ((Pool.new config registry).inputsOf g ((Pool.new config registry).stepsOfAll calls))
    rw [hlast]
    refine ⟨hstory, ?_, ?_, fun j k known hjk => Lifecycle.protocol_after key now _ hjk⟩
    · intro l hl
      rcases Pool.Follows.recordsBy_eq hstory with ⟨hopen, -⟩ | ⟨hclosed, -⟩
      · obtain rfl := Option.some.inj (hl.symm.trans hopen)
        exact ⟨hname, hsome⟩
      · exact absurd (hl.symm.trans hclosed) (by simp)
    · intro record hrecord
      rcases Pool.Follows.recordsBy_eq hstory with ⟨-, hnone⟩ | ⟨-, reason, hone⟩
      · rw [hnone] at hrecord
        exact absurd hrecord List.not_mem_nil
      · rw [hone] at hrecord
        obtain rfl := List.mem_singleton.mp hrecord
        refine ⟨hname, ?_⟩
        intro hexchanges
        exact (congrArg Option.isSome hname).trans (hsome hexchanges)

/-- Of two decoders the first answers the first payload with a response, which counts for nothing; the
request in the second payload is the other one's, and names the protocol. -/
theorem Tracker.protocol_of_second_payload :
    let first : Decoder := .ofRules "first" false "first" [([1], .response 200 "done")]
    let second : Decoder := .ofRules "second" true "second"
      [([1], .request "GET" "/" none), ([2], .request "GET" "/" none)]
    let registry : Registry := ⟨[first, second], by decide⟩
    let f : Flow := ⟨.v4 ⟨10, 0, 0, 1⟩, 40000, .v4 ⟨10, 0, 0, 2⟩, 80⟩
    let opening : Segment := ⟨f, { syn := true }, 100, 0, [], 0⟩
    let early : Segment := ⟨f.reverse, { ack := true }, 500, 101, [1], 1000⟩
    let request : Segment := ⟨f, { ack := true }, 101, 501, [2], 2000⟩
    let calls : List TrackerCall := [opening, early, request].map .feed
    let last := ((Tracker.new "eth0" {} registry).run calls).pool
    ({} : Config).maxInspectedSegments < 4294967295 ∧
      ∃ l, last.lifecycle? 1 = some l ∧ l.session.protocolState.name? = some "second" := by
  intro first second registry f opening early request calls last
  have hw : ({} : Config).maxInspectedSegments < 4294967295 := by decide
  have hcarried : ∀ s ∈ [early, request], f.carries s = true := by decide
  obtain ⟨hopening, hinputs, l, hl⟩ := Pool.connection_carried_new {} registry (s := opening)
    (by decide) hcarried
  obtain ⟨hlast, hall⟩ := Tracker.protocol_of_first_request "eth0" {} registry hw calls
  have hfirst : (Pool.new {} registry).openingOf 1 ((Pool.new {} registry).stepsOfAll calls) =
      some (f, 0) := hopening
  have hprotocol := hall 1
  rw [hfirst] at hprotocol
  obtain ⟨-, hopen, -⟩ := hprotocol
  have hlive : last.lifecycle? 1 = some l := (congrArg (Pool.lifecycle? · 1) hlast).trans hl
  refine ⟨hw, l, hlive, (hopen l hlive).1.trans ?_⟩
  have hheard : (Pool.new {} registry).inputsOf 1 ((Pool.new {} registry).stepsOfAll calls) =
      [.segment opening, .segment early, .segment request] := hinputs
  rw [hheard]
  decide

end FlowWatch
