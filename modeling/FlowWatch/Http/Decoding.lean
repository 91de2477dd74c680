/-
The decoder for HTTP/1.

The first four bytes decide whether a payload is taken for a request, for a response, or for no
HTTP at all. Only a payload with such an opening can be malformed; every other one is not
recognized.
-/
import FlowWatch.Protocol.Registry
import FlowWatch.Http.Message

set_option autoImplicit false

namespace FlowWatch.Http

/-- The shortest payload that is looked at. -/
def minimumLength : Nat := 5

/-- The name of the protocol. -/
def protocolName : String := "http"

/-- The bytes of an ASCII text. -/
def ascii (s : String) : List UInt8 := s.toList.map fun c => UInt8.ofNat c.toNat

/-- The openings of the request methods. -/
def requestOpenings : List (List UInt8) :=
  ["GET ", "HEAD", "POST", "PUT ", "DELE", "OPTI", "PATC", "CONN", "TRAC"].map ascii

/-- The opening of a response. -/
def responseOpening : List UInt8 := ascii "HTTP"

/-- Reads a payload as the opening says. -/
def readPayload (payload : List UInt8) (seen : Instant) : Except HttpError AppEvent := do
  let cursor := Cursor.new payload
  cursor.requireLength minimumLength
  let opening ← cursor.opening
  if opening == responseOpening then
    let response ← Response.parse payload
    return .response ⟨protocolName, response.status, response.reason, seen⟩
  else if requestOpenings.contains opening then
    let request ← Request.parse payload
    return .request ⟨protocolName, request.method, request.target, request.host, seen⟩
  else .error .notHttp

/-- A fault of a payload that opens like HTTP is malformed, any other refusal is not. -/
def refusal : HttpError → Refusal
  | .tooShort .. | .notHttp => .notRecognized
  | e => .malformed e.message

/-- The HTTP decoder under a name of choice. -/
def decoder (name : String) : Decoder where
  name := name
  refines := true
  decode payload seen :=
    match readPayload payload seen with
    | .ok event => .ok event
    | .error e => .error (refusal e)

end FlowWatch.Http

namespace FlowWatch.Registry

/-- The built-in decoders. -/
def standard : Registry := ⟨[Http.decoder Http.protocolName], by simp⟩

end FlowWatch.Registry
