/-
The decoder calls of a tracker.

A call is told in the turn that makes it, so the calls of a session are listed turn by turn. What a turn
calls depends on the payloads the session has heard before and on nothing else: not on the sides, the
cache and the ticks, not on the other sessions, and not on the slot.
-/
import FlowWatch.Proofs.Pool.Generations
import FlowWatch.Proofs.Session.DecoderCalls
import FlowWatch.Proofs.Session.Termination
import FlowWatch.Proofs.Tracker.Connection

set_option autoImplicit false

namespace FlowWatch

/-- Calls come from the inspection of payloads. -/
theorem Notice.filterMap_decoder?_isHeard (ns : List Notice) :
    (ns.filter isHeard).filterMap decoder? = ns.filterMap decoder? := by
  rw [List.filterMap_filter]
  apply List.filterMap_congr
  intro n _
  cases n <;> rfl

namespace Lifecycle

variable {config : Config} {registry : Registry} {l : Lifecycle}

/-- The decoders that a session calls, turn by turn. -/
def callsBy (config : Config) (registry : Registry) (l : Lifecycle) : List Input → List (List String)
  | [] => []
  | input :: inputs =>
    let t := l.turn config registry {} input
    t.notices.filterMap Notice.decoder? :: t.next.callsBy config registry inputs

theorem getElem?_callsBy (inputs : List Input) (k : Nat) :
    (l.callsBy config registry inputs)[k]? = inputs[k]?.map fun input =>
      ((l.after config registry inputs k).turn config registry {} input).notices.filterMap
        Notice.decoder? := by
  induction inputs generalizing l k with
  | nil => rfl
  | cons input inputs ih =>
    cases k with
    | zero => rfl
    | succ k => exact ih k

/-- What the turns call one after the other is all that the session calls. -/
theorem flatten_callsBy (inputs : List Input) :
    (l.callsBy config registry inputs).flatten =
      (l.replay config registry inputs).2.filterMap Notice.decoder? := by
  induction inputs generalizing l with
  | nil => rfl
  | cons input inputs ih =>
    rw [callsBy, List.flatten_cons, ih, replay, List.filterMap_append]

theorem calls_turn (hl : l.session.TwoSided) (hopen : l.cache.closed = false) (input : Input) :
    (l.turn config registry {} input).notices.filterMap Notice.decoder? =
      (l.session.listen config registry (input.heard? l.session).toList).2.filterMap
        Notice.decoder? := by
  rw [← (listen_turn config registry {} hl hopen input).2, Notice.filterMap_decoder?_isHeard]

/-- What a turn calls, from the payloads that were heard before it. -/
theorem calls_after (key : Flow) (now : Instant) (inputs : List Input) (k : Nat) (input : Input) :
    let first := begin config key now
    ((first.after config registry inputs k).turn config registry {} input).notices.filterMap
        Notice.decoder? =
      (((first.session.listen config registry (heardBy first.session (inputs.take k))).1.listen
        config registry (input.heard? first.session).toList).2.filterMap Notice.decoder?) := by
  intro first
  have hkey : (first.after config registry inputs k).session.key = first.session.key :=
    key_replay config registry (inputs.take k)
  have htwo : (first.after config registry inputs k).session.TwoSided :=
    twoSided_replay config registry (Session.TwoSided.new key now) (inputs.take k)
  have hopen : (first.after config registry inputs k).cache.closed = false :=
    closed_replay config registry (inputs.take k)
  rw [calls_turn htwo hopen, Input.heard?_congr hkey]
  -- The session has the dialogue that the payloads before leave behind.
  obtain ⟨hdialogue, -⟩ := listen_begin config registry key now (inputs.take k)
  obtain ⟨-, htold⟩ := Session.listen_congr config registry hdialogue
    (input.heard? first.session).toList
  exact congrArg (List.filterMap Notice.decoder?) htold

/-- **Every turn makes the calls that are due**, and a turn without a payload makes none. -/
theorem callsDue_callsBy (registry : Registry) (key : Flow) (now : Instant)
    (hw : config.maxInspectedSegments < 4294967295) (inputs : List Input) {k : Nat} {input : Input}
    (hk : inputs[k]? = some input) :
    let first := begin config key now
    match input.heard? first.session with
    | none => (first.callsBy config registry inputs)[k]? = some []
    | some s => ∃ called, (first.callsBy config registry inputs)[k]? = some called ∧
        registry.CallsDue config.maxInspectedSegments.toNat
          (heardBy first.session (inputs.take k)) s called := by
  dsimp only
  rw [getElem?_callsBy, hk, Option.map_some, calls_after]
  rcases input.heard? (begin config key now).session with _ | s
  · rfl
  · refine ⟨_, rfl, ?_⟩
    have hdue := Session.callsDue_inspect registry key now hw
      (heardBy (Session.new key now) (inputs.take k)) s
    show registry.CallsDue _ _ _ (List.filterMap _ (_ ++ []))
    rw [List.append_nil]
    exact hdue

end Lifecycle

/-- A generation tells the calls of its turns, and the end of its session adds none. -/
theorem Pool.Follows.calls_eq {p : Pool} {g : Nat} {l : Lifecycle} {ss : List PoolStep}
    (h : p.Follows g l ss) :
    (p.toldBy g ss).filterMap Notice.decoder? =
      (l.callsBy p.config p.registry (p.inputsOf g ss)).flatten := by
  rw [Lifecycle.flatten_callsBy]
  rcases h with ⟨-, htold⟩ | ⟨-, reason, htold⟩
  · rw [htold]
  · rw [htold, List.filterMap_append]
    exact List.append_nil _

/-- **Which decoders are called.** In every run of a tracker, a generation that is opened calls decoders
for its payloads only, each in the turn of its segment. Without a request so far, a payload within the
window goes to the decoders in the order of their registration, up to the first that accepts it, and past
the window to nobody. Once a request within the window has come from a decoder, this decoder is called
once for each payload until it sees a response; after that it is called once for each payload if it
refines, and never if it does not. The window is one payload longer than its setting, which must not be
the largest 32-bit word. -/
theorem Tracker.decoder_calls_due (name : String) (config : Config) (registry : Registry)
    (hw : config.maxInspectedSegments < 4294967295) (calls : List TrackerCall) :
    let start := Pool.new config registry
    let ss := start.stepsOfAll calls
    let last := ((Tracker.new name config registry).run calls).pool
    last = start.steps ss ∧ last.journal.toList = (start.telling ss).map (·.2) ∧
      ∀ g, match start.openingOf g ss with
        | none => start.toldBy g ss = []
        | some (key, now) =>
          let first := Lifecycle.begin config key now
          let inputs := start.inputsOf g ss
          let made := first.callsBy config registry inputs
          start.Follows g first ss ∧
            (start.toldBy g ss).filterMap Notice.decoder? = made.flatten ∧
            ∀ k input, inputs[k]? = some input → match input.heard? first.session with
              | none => made[k]? = some []
              | some s => ∃ called, made[k]? = some called ∧
                  registry.CallsDue config.maxInspectedSegments.toNat
                    (Lifecycle.heardBy first.session (inputs.take k)) s called := by
  intro start ss last
  have hlast : last = start.steps ss := (Tracker.new name config registry).pool_run calls
  refine ⟨hlast, ?_, ?_⟩
  · rw [hlast]
    exact (Pool.Consistent.new config registry).journal_steps ss
  intro g
  rcases hopening : start.openingOf g ss with _ | ⟨key, now⟩
  · exact Pool.toldBy_new hopening
  · have hfollows : start.Follows g (Lifecycle.begin config key now) ss := Pool.follows_new hopening
    refine ⟨hfollows, hfollows.calls_eq, ?_⟩
    intro k input hinput
    exact Lifecycle.callsDue_callsBy registry key now hw _ hinput

/-- The greeting is accepted by the first decoder, so the second is not asked; the request is refused by
the first and goes on to the second, and the response is shown to the second alone. -/
theorem Tracker.decoder_calls_of_three_payloads :
    let first : Decoder := .ofRules "first" false "first" [([1], .unknown)]
    let second : Decoder := .ofRules "second" false "second"
      [([2], .request "GET" "/" none), ([3], .response 200 "done")]
    let registry : Registry := ⟨[first, second], by decide⟩
    let f : Flow := ⟨.v4 ⟨10, 0, 0, 1⟩, 40000, .v4 ⟨10, 0, 0, 2⟩, 80⟩
    let opening : Segment := ⟨f, { syn := true }, 100, 0, [], 0⟩
    let greeting : Segment := ⟨f.reverse, { ack := true }, 500, 101, [1], 1000⟩
    let request : Segment := ⟨f, { ack := true }, 101, 501, [2], 2000⟩
    let response : Segment := ⟨f.reverse, { ack := true }, 501, 102, [3], 3000⟩
    let calls : List TrackerCall := [opening, greeting, request, response].map .feed
    let start := Pool.new {} registry
    let made := (Lifecycle.begin {} f 0).callsBy {} registry (start.inputsOf 1 (start.stepsOfAll calls))
    ({} : Config).maxInspectedSegments < 4294967295 ∧ made[0]? = some [] ∧
      made[1]? = some ["first"] ∧ made[2]? = some ["first", "second"] ∧
      made[3]? = some ["second"] := by
  intro first second registry f opening greeting request response calls start made
  have hw : ({} : Config).maxInspectedSegments < 4294967295 := by decide
  have hcarried : ∀ s ∈ [greeting, request, response], f.carries s = true := by decide
  obtain ⟨hopening, hinputs, -⟩ := Pool.connection_carried_new {} registry (s := opening) (by decide)
    hcarried
  have hfirst : (Pool.new {} registry).openingOf 1 ((Pool.new {} registry).stepsOfAll calls) =
      some (f, 0) := hopening
  have hheard : start.inputsOf 1 (start.stepsOfAll calls) =
      [.segment opening, .segment greeting, .segment request, .segment response] := hinputs
  obtain ⟨-, -, hall⟩ := Tracker.decoder_calls_due "eth0" {} registry hw calls
  have hdue := hall 1
  rw [hfirst] at hdue
  obtain ⟨-, -, hturns⟩ := hdue
  refine ⟨hw, ?_, ?_, ?_, ?_⟩
  · exact hturns 0 (.segment opening) (by rw [hheard]; rfl)
  · obtain ⟨called, hmade, hcalled⟩ := hturns 1 (.segment greeting) (by rw [hheard]; rfl)
    rw [hheard] at hcalled
    refine hmade.trans (congrArg some ((hcalled.searching ?_ ?_).trans ?_)) <;> decide
  · obtain ⟨called, hmade, hcalled⟩ := hturns 2 (.segment request) (by rw [hheard]; rfl)
    rw [hheard] at hcalled
    refine hmade.trans (congrArg some ((hcalled.searching ?_ ?_).trans ?_)) <;> decide
  · obtain ⟨called, hmade, hcalled⟩ := hturns 3 (.segment response) (by rw [hheard]; rfl)
    rw [hheard] at hcalled
    have hsettles : registry.Settles ({} : Config).maxInspectedSegments.toNat
        (Lifecycle.heardBy (Session.new f 0) [.segment opening, .segment greeting, .segment request])
        "second" [] := ⟨[greeting], request, by decide, by decide, by decide, by decide⟩
    exact hmade.trans (congrArg some (hcalled.awaiting "second" [] hsettles (by simp)))

end FlowWatch
