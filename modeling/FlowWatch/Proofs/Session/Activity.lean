/-
When a session was last active.

The last activity of a session is the latest of the time it was opened at and the times of the segments it
took, in whatever order these came; a tick is no activity. A session keeps this time as it is, and not
in a word that may be too small for it.

A tick moves the marks of the last report and drops old cache entries, and that is all it does to the
session. It finds the session idle by comparing the last activity with its own time.
-/
import FlowWatch.Proofs.Session.Delay
import FlowWatch.Proofs.Session.Termination

set_option autoImplicit false

namespace FlowWatch

namespace Session

/-- The marks are in no summary. -/
theorem summary_unmarked (s : Session) (reason : CloseReason) :
    s.unmarked.summary reason = s.summary reason := rfl

theorem total_unmarked (s : Session) (d : Direction) :
    (s.unmarked.side d).total = (s.side d).total := by
  cases d <;> rfl

end Session

namespace Lifecycle

/-- The time of an input that is activity. -/
def Input.seen? : Input → Option Instant
  | .segment s => some s.seen
  | .tick _ => none

/-- The latest of the time a session was opened at and the times of the segments among its inputs. -/
def lastActivity (opened : Instant) (inputs : List Input) : Instant :=
  (inputs.filterMap Input.seen?).foldl max opened

theorem lastActivity_cons (opened : Instant) (input : Input) (inputs : List Input) :
    lastActivity opened (input :: inputs) = lastActivity (input.seen?.elim opened (max opened)) inputs := by
  unfold lastActivity
  cases input with
  | segment s => rfl
  | tick now => rfl

variable (config : Config) (registry : Registry) (counters : Counters) {l : Lifecycle}

/-- A segment that the session takes moves its last activity, unless it is late. -/
theorem lastSeen_turn {input : Input} (hfor : input.isFor l.session = true) :
    (l.turn config registry counters input).next.session.lastSeen =
      input.seen?.elim l.session.lastSeen (max l.session.lastSeen) := by
  cases input with
  | segment s =>
    obtain ⟨d, hroute⟩ := Option.isSome_iff_exists.mp hfor
    rw [turn_of_routed config registry counters hroute]
    exact (l.session.times_receiveOn config registry l.cache counters d s).2
  | tick now => rcases now with _ | now <;> rfl

/-- **A session knows its last activity.** -/
theorem lastSeen_replay {inputs : List Input}
    (hfor : ∀ input ∈ inputs, input.isFor l.session = true) :
    (l.replay config registry inputs).1.session.lastSeen = lastActivity l.session.lastSeen inputs := by
  induction inputs generalizing l with
  | nil => rfl
  | cons input inputs ih =>
    have hnow := hfor input List.mem_cons_self
    have hkey := l.key_turn config registry {} input
    have hlater : ∀ later ∈ inputs,
        later.isFor (l.turn config registry {} input).next.session = true := by
      intro later hmem
      rw [Input.isFor_congr hkey]
      exact hfor later (List.mem_cons_of_mem _ hmem)
    rw [replay, lastActivity_cons, ← lastSeen_turn config registry {} hnow]
    exact ih hlater

theorem le_lastActivity (opened : Instant) (inputs : List Input) :
    opened ≤ lastActivity opened inputs := by
  induction inputs generalizing opened with
  | nil => exact Int.le_refl _
  | cons input inputs ih =>
    rw [lastActivity_cons]
    refine Int.le_trans ?_ (ih _)
    cases input with
    | segment s => exact Int.le_max_left _ _
    | tick now => exact Int.le_refl _

/-! ## Ticks -/

/-- A tick changes nothing of the session but the marks, and counts nothing. -/
theorem session_turn_tick (now : Option Instant) :
    let turn := l.turn config registry counters (.tick now)
    turn.next.session.unmarked = l.session.unmarked ∧ turn.counters = counters := by
  rcases now with _ | now <;> exact ⟨rfl, rfl⟩

/-- A tick finds a session idle if the timeout has passed since the last activity. -/
theorem done_turn_tick (hconfig : config.validate = .ok ()) {now : Instant}
    (hlast : Instant.earliest ≤ l.session.lastSeen) (hnow : now ≤ Instant.latest) :
    (l.turn config registry counters (.tick (some now))).done =
      decide (Span.ofSeconds config.idleTimeoutSecs.toNat < now - l.session.lastSeen) := by
  have hidle : (l.turn config registry counters (.tick (some now))).done =
      Session.isIdle l.session.lastSeen now config.idleTimeout := rfl
  rw [hidle, Session.isIdle_eq hlast hnow config.idleTimeout_nonneg, config.idleTimeout_eq hconfig]
  refine decide_eq_decide.mpr (Int.lt_sub_right_iff_add_lt.trans ?_)
  rw [Int.add_comm, Int.lt_sub_right_iff_add_lt]

end Lifecycle

end FlowWatch
