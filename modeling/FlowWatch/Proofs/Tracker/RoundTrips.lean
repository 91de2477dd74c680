/-
The round trips a tracker reports.

A generation does what a session of its own does on a cache of its own, so all that is known about
the samples of a lifecycle is known about the samples of a generation: whatever else goes on in the
pool, whatever the slot was used for before, and in whatever order and at whatever times the segments
come in.
-/
import FlowWatch.Proofs.Pool.Generations
import FlowWatch.Proofs.Session.Samples

set_option autoImplicit false

namespace FlowWatch

/-- **Every round trip is the time between a send and its answer.** In every run of a tracker a
generation that is opened follows a fresh lifecycle on the inputs that it took, and in these each
sample belongs to a segment of the client: the last one before the answer that expects this
acknowledgment, up to one position. No segment of the server records two samples and no segment of the
client belongs to two, so there are no more samples than packets in either direction. -/
theorem Tracker.samples_backed (name : String) (config : Config) (registry : Registry)
    (calls : List TrackerCall) :
    let start := Pool.new config registry
    let ss := start.stepsOfAll calls
    ((Tracker.new name config registry).run calls).pool = start.steps ss ∧
      ∀ g, match start.openingOf g ss with
        | none => start.toldBy g ss = []
        | some (key, now) =>
          let first := Lifecycle.begin config key now
          let inputs := start.inputsOf g ss
          start.Follows g first ss ∧
            ∃ backing, first.Backing config registry inputs backing ∧
              Lifecycle.SampleFigures (first.replay config registry inputs).1.session
                (Lifecycle.sampledPlaces backing inputs.length).card
                (Lifecycle.segmentsOn first.session .clientToServer inputs).length
                (Lifecycle.segmentsOn first.session .serverToClient inputs).length := by
  dsimp only
  refine ⟨(Tracker.new name config registry).pool_run calls, fun g => ?_⟩
  have hstory := Pool.story_new config registry g ((Pool.new config registry).stepsOfAll calls)
  rcases hopening : (Pool.new config registry).openingOf g
      ((Pool.new config registry).stepsOfAll calls) with _ | ⟨key, now⟩
  · rw [hopening] at hstory
    exact hstory
  · rw [hopening] at hstory
    obtain ⟨backing, hbacking⟩ := Lifecycle.exists_backing_begin config registry key now
      ((Pool.new config registry).inputsOf g ((Pool.new config registry).stepsOfAll calls))
    exact ⟨hstory, backing, hbacking, hbacking.figures rfl⟩

end FlowWatch
