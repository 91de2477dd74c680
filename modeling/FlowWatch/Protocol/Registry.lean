/-
Decoders and their registry.

A decoder looks at one payload and answers with an event or with the reason why it refuses. The
registry holds decoders under distinct names in registration order, and the first one that accepts
a payload wins. Since a decoder may be costly, an answer also lists which decoders were called.
-/
import FlowWatch.Protocol.Event
import FlowWatch.Text.Quoted

set_option autoImplicit false

namespace FlowWatch

/-! ## Decoders -/

/-- Why a decoder refuses a payload. -/
inductive Refusal where
  | notRecognized
  | malformed (reason : String)
  deriving DecidableEq, Repr

namespace Refusal

/-- The refusal in words. -/
def message : Refusal → String
  | .notRecognized => "payload not recognized"
  | .malformed reason => "malformed payload: " ++ reason

end Refusal

/-- A named decoder. One that refines goes on seeing payloads after its first exchange. -/
structure Decoder where
  name : String
  refines : Bool
  decode : List UInt8 → Instant → Except Refusal AppEvent

namespace Decoder

/-- The event for an accepted payload. -/
def accept? (d : Decoder) (payload : List UInt8) (seen : Instant) : Option AppEvent :=
  match d.decode payload seen with
  | .ok event => some event
  | .error _ => none

/-- What a rule answers. -/
inductive Reply where
  | unknown
  | request (method target : String) (host : Option String)
  | response (status : UInt16) (reason : String)
  | malformed (reason : String)
  deriving DecidableEq, Repr

/-- The answer of a rule at a time. -/
def Reply.answer (protocol : String) (seen : Instant) : Reply → Except Refusal AppEvent
  | .unknown => .ok .unknown
  | .request method target host => .ok (.request ⟨protocol, method, target, host, seen⟩)
  | .response status reason => .ok (.response ⟨protocol, status, reason, seen⟩)
  | .malformed reason => .error (.malformed reason)

/-- A decoder given by a table: the first opening that a payload starts with decides the answer.
-/
def ofRules (name : String) (refines : Bool) (protocol : String)
    (rules : List (List UInt8 × Reply)) : Decoder where
  name := name
  refines := refines
  decode payload seen :=
    match rules.find? fun rule => rule.1.isPrefixOf payload with
    | some rule => rule.2.answer protocol seen
    | none => .error .notRecognized

end Decoder

/-! ## The registry -/

/-- A second decoder under a name in use. -/
inductive RegistryError where
  | duplicate (name : String)
  deriving DecidableEq, Repr

namespace RegistryError

/-- The refusal in words. -/
def message : RegistryError → String
  | .duplicate name => "decoder already registered: " ++ name

end RegistryError

/-- Decoders under distinct names, in registration order. -/
structure Registry where
  decoders : List Decoder
  distinct : (decoders.map (·.name)).Nodup

/-- An answer of the registry: the decoders called, in order, and the event of the one that
accepted, under its name. -/
structure Verdict where
  called : List String
  event : Option (String × AppEvent)
  deriving DecidableEq, Repr

namespace Registry

/-- A registry without decoders. -/
def empty : Registry := ⟨[], by simp⟩

/-- Adds a decoder after the others. -/
def register (r : Registry) (d : Decoder) : Except RegistryError Registry :=
  if h : d.name ∈ r.decoders.map (·.name) then .error (.duplicate d.name)
  else .ok ⟨r.decoders ++ [d], by
    have := r.distinct
    simp only [List.map_append, List.map_cons, List.map_nil, List.nodup_append, List.nodup_cons,
      List.not_mem_nil, not_false_eq_true, List.nodup_nil, and_self, List.mem_singleton, this,
      true_and]
    rintro a ha b rfl rfl
    exact h ha⟩

/-- The names in registration order. -/
def names (r : Registry) : List String := r.decoders.map (·.name)

/-- The names in brackets. -/
def text (r : Registry) : String := Text.quotedList r.names

/-- The decoder registered as `name`. -/
def find? (r : Registry) (name : String) : Option Decoder := r.decoders.find? (·.name == name)

/-- Whether `name` is registered and refines. -/
def refines (r : Registry) (name : String) : Bool := (r.find? name).any (·.refines)

/-- Tries decoders in order until one accepts. -/
def firstAccepting (payload : List UInt8) (seen : Instant) : List Decoder → Verdict
  | [] => ⟨[], none⟩
  | d :: ds =>
    match d.accept? payload seen with
    | some event => ⟨[d.name], some (d.name, event)⟩
    -- A refusal of either kind passes the payload on.
    | none =>
      let v := firstAccepting payload seen ds
      ⟨d.name :: v.called, v.event⟩

/-- Offers a payload to all decoders. -/
def offer (r : Registry) (payload : List UInt8) (seen : Instant) : Verdict :=
  firstAccepting payload seen r.decoders

/-- Offers a payload to the decoder registered as `name` only. -/
def offerTo (r : Registry) (name : String) (payload : List UInt8) (seen : Instant) :
    Verdict :=
  match r.find? name with
  | some d => ⟨[d.name], (d.accept? payload seen).map fun event => (d.name, event)⟩
  | none => ⟨[], none⟩

end Registry

end FlowWatch
