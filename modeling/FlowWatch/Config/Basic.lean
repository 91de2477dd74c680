/-
The settings of the session engine.

All settings have defaults. `validate` refuses values the engine cannot run with, and reports the
first one in the order below. One of them gets past it: a queue capacity beyond `queueLimit`, for
which no session has a queue. The derived spans are total: they are defined for unvalidated
settings too.
-/
import FlowWatch.Text.Decimal
import FlowWatch.Time.Instant

set_option autoImplicit false

namespace FlowWatch

/-- What can be wrong with a value. -/
inductive ConfigFault where
  | zero
  | outOfRange
  deriving DecidableEq, Repr

namespace ConfigFault

/-- The fault in words. -/
def message : ConfigFault → String
  | .zero => "must be greater than zero"
  | .outOfRange => "out of range"

end ConfigFault

/-- The names of the settings, in order. -/
inductive ConfigField where
  | queueCapacity
  | idleTimeoutSecs
  | idleCheckIntervalMs
  | rttMaxAgeMs
  | maxInspectedSegments
  | initialPoolCapacity
  | throughputIntervalSecs
  | workerThreads
  deriving DecidableEq, Repr

namespace ConfigField

/-- All settings in order. -/
def all : List ConfigField :=
  [.queueCapacity, .idleTimeoutSecs, .idleCheckIntervalMs, .rttMaxAgeMs, .maxInspectedSegments,
    .initialPoolCapacity, .throughputIntervalSecs, .workerThreads]

/-- The written name. -/
def name : ConfigField → String
  | .queueCapacity => "queue_capacity"
  | .idleTimeoutSecs => "idle_timeout_secs"
  | .idleCheckIntervalMs => "idle_check_interval_ms"
  | .rttMaxAgeMs => "rtt_max_age_ms"
  | .maxInspectedSegments => "max_inspected_segments"
  | .initialPoolCapacity => "initial_pool_capacity"
  | .throughputIntervalSecs => "throughput_interval_secs"
  | .workerThreads => "worker_threads"

/-- The setting of a written name. -/
def ofName? (s : String) : Option ConfigField := all.find? (·.name == s)

/-- The greatest value the setting can hold. -/
def limit : ConfigField → Nat
  | .maxInspectedSegments => 4294967295
  | _ => 18446744073709551615

end ConfigField

/-- Settings; spans of time are in the unit their name says. -/
structure Config where
  /-- Segments that may wait for one session. -/
  queueCapacity : UInt64 := 10
  /-- Sessions without activity for longer than this are closed. -/
  idleTimeoutSecs : UInt64 := 120
  /-- The time between two maintenance ticks of a session. -/
  idleCheckIntervalMs : UInt64 := 60000
  /-- The greatest age of a waiting cache entry; zero keeps entries forever. -/
  rttMaxAgeMs : UInt64 := 300000
  /-- After this many payloads beyond the first a session stays unclassified. -/
  maxInspectedSegments : UInt32 := 5
  /-- Slots made at the first growth of the pool; later growths double. -/
  initialPoolCapacity : UInt64 := 8192
  /-- The period of interface statistics. -/
  throughputIntervalSecs : UInt64 := 10
  /-- Threads to run sessions on; zero lets the machine decide. -/
  workerThreads : UInt64 := 0
  deriving DecidableEq, Repr

/-- A refused value. -/
structure ConfigRefusal where
  field : ConfigField
  fault : ConfigFault
  deriving DecidableEq, Repr

namespace ConfigRefusal

/-- The refusal in words. -/
def message (r : ConfigRefusal) : String :=
  "invalid value for " ++ r.field.name ++ ": " ++ r.fault.message

end ConfigRefusal

namespace Config

/-- The value of a setting. -/
def get (c : Config) : ConfigField → Nat
  | .queueCapacity => c.queueCapacity.toNat
  | .idleTimeoutSecs => c.idleTimeoutSecs.toNat
  | .idleCheckIntervalMs => c.idleCheckIntervalMs.toNat
  | .rttMaxAgeMs => c.rttMaxAgeMs.toNat
  | .maxInspectedSegments => c.maxInspectedSegments.toNat
  | .initialPoolCapacity => c.initialPoolCapacity.toNat
  | .throughputIntervalSecs => c.throughputIntervalSecs.toNat
  | .workerThreads => c.workerThreads.toNat

/-- The settings with one value replaced; the value is taken to be within the limit. -/
def set (c : Config) (n : Nat) : ConfigField → Config
  | .queueCapacity => { c with queueCapacity := UInt64.ofNat n }
  | .idleTimeoutSecs => { c with idleTimeoutSecs := UInt64.ofNat n }
  | .idleCheckIntervalMs => { c with idleCheckIntervalMs := UInt64.ofNat n }
  | .rttMaxAgeMs => { c with rttMaxAgeMs := UInt64.ofNat n }
  | .maxInspectedSegments => { c with maxInspectedSegments := UInt32.ofNat n }
  | .initialPoolCapacity => { c with initialPoolCapacity := UInt64.ofNat n }
  | .throughputIntervalSecs => { c with throughputIntervalSecs := UInt64.ofNat n }
  | .workerThreads => { c with workerThreads := UInt64.ofNat n }

/-! ## Validation -/

/-- The settings that must not be zero, in the order of the tests. -/
def nonZero : List ConfigField :=
  [.queueCapacity, .idleTimeoutSecs, .idleCheckIntervalMs, .initialPoolCapacity,
    .throughputIntervalSecs]

/-- The settings that must fit a signed 64-bit word, in the order of the tests. -/
def signed : List ConfigField := [.idleTimeoutSecs, .rttMaxAgeMs]

/-- The first refused value. -/
def refusal? (c : Config) : Option ConfigRefusal :=
  match nonZero.find? fun f => c.get f == 0 with
  | some f => some ⟨f, .zero⟩
  | none => (signed.find? fun f => int64Max < c.get f).map fun f => ⟨f, .outOfRange⟩

/-- Accepts settings the engine can run with. -/
def validate (c : Config) : Except ConfigRefusal Unit :=
  match c.refusal? with
  | some r => .error r
  | none => .ok ()

/-- Accepted settings fit a signed 64-bit word where they must. -/
theorem get_le_int64Max {c : Config} (h : c.validate = .ok ()) {f : ConfigField} (hf : f ∈ signed) :
    (c.get f : Int) ≤ int64Max := by
  unfold validate refusal? at h
  rcases hzero : nonZero.find? fun f => c.get f == 0 with _ | g
  · rw [hzero] at h
    rcases hlarge : signed.find? fun f => int64Max < c.get f with _ | g
    · have hnot := List.find?_eq_none.mp hlarge f hf
      exact Int.not_lt.mp (by simpa using hnot)
    · rw [hlarge] at h
      exact absurd h (by simp)
  · rw [hzero] at h
    exact absurd h (by simp)

/-! ## Queues -/

/-- The most segments that the queue of a session can be made for. -/
def queueLimit : Nat := 2305843009213693951

/-- Whether a queue can be made for as many segments as are to wait for a session. -/
def hasQueue (c : Config) : Bool :=
  0 < c.queueCapacity.toNat && c.queueCapacity.toNat ≤ queueLimit

/-! ## Derived spans -/

/-- The span after which a session without activity is closed. -/
def idleTimeout (c : Config) : Span := Span.ofSeconds (min c.idleTimeoutSecs.toNat int64Max)

theorem idleTimeout_nonneg (c : Config) : 0 ≤ c.idleTimeout := by
  have hseconds : 0 ≤ min (c.idleTimeoutSecs.toNat : Int) int64Max := by
    unfold int64Max
    omega
  exact Int.mul_nonneg hseconds (by decide)

/-- An accepted timeout is not cut. -/
theorem idleTimeout_eq {c : Config} (h : c.validate = .ok ()) :
    c.idleTimeout = Span.ofSeconds c.idleTimeoutSecs.toNat := by
  have hfits : (c.idleTimeoutSecs.toNat : Int) ≤ int64Max :=
    get_le_int64Max h (f := .idleTimeoutSecs) (by decide)
  unfold idleTimeout
  rw [Int.min_eq_left hfits]

/-- The greatest age of a cache entry, if there is one. -/
def rttMaxAge (c : Config) : Option Span :=
  if c.rttMaxAgeMs == 0 then none
  else some (Span.ofMilliseconds (min c.rttMaxAgeMs.toNat int64Max))

/-- The time between two maintenance ticks, at least a millisecond. -/
def idleCheckInterval (c : Config) : Span := Span.ofMilliseconds (max c.idleCheckIntervalMs.toNat 1)

/-- The period of interface statistics. -/
def throughputInterval (c : Config) : Span := Span.ofSeconds c.throughputIntervalSecs.toNat

end Config

end FlowWatch
