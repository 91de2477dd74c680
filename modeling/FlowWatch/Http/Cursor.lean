/-
Reading the head of an HTTP message.

A cursor stands at a byte position of a payload. Lines end at a line feed or at the end of the
payload, and one carriage return at the end of a line does not belong to it. The start line has to
be UTF-8; header fields are decoded tolerantly, since one odd header must not cost the message.
-/
import FlowWatch.Text.Blank
import FlowWatch.Text.Decimal
import FlowWatch.Text.Quoted
import FlowWatch.Text.Utf8

set_option autoImplicit false

namespace FlowWatch.Http

open Text

/-- Why a payload is not an HTTP message head. -/
inductive HttpError where
  | tooShort (needed actual : Nat)
  | notHttp
  | missingStartLine
  | notUtf8
  | malformedRequestLine (line : String)
  | malformedStatusLine (line : String)
  | invalidVersion (version : String)
  | invalidStatusCode (code : String)
  | invalidTarget (target : String)
  deriving DecidableEq, Repr

namespace HttpError

/-- The refusal in words. -/
def message : HttpError → String
  | .tooShort needed actual =>
    "payload too short: need " ++ String.ofList (decimal needed) ++ " bytes, got " ++
      String.ofList (decimal actual)
  | .notHttp => "payload does not start like HTTP"
  | .missingStartLine => "missing start line"
  | .notUtf8 => "start line is not valid UTF-8"
  | .malformedRequestLine line => "malformed HTTP request " ++ quoted line
  | .malformedStatusLine line => "malformed HTTP response " ++ quoted line
  | .invalidVersion version => "malformed HTTP version " ++ quoted version
  | .invalidStatusCode code => "malformed HTTP status code " ++ quoted code
  | .invalidTarget target => "invalid request target " ++ quoted target

end HttpError

/-- A header field: name and value. -/
abbrev Field := String × String

/-- A place in a payload: `rest` is what lies beyond `position`. -/
structure Cursor where
  payload : List UInt8
  position : Nat
  rest : List UInt8
  rest_eq : rest = payload.drop position

namespace Cursor

/-- A cursor at the start of a payload. -/
def new (payload : List UInt8) : Cursor := ⟨payload, 0, payload, rfl⟩

/-- The cursor `n` bytes further on. -/
def skip (r : Cursor) (n : Nat) : Cursor where
  payload := r.payload
  position := r.position + n
  rest := r.rest.drop n
  rest_eq := by rw [r.rest_eq, List.drop_drop]

/-! ## The payload as a whole -/

/-- Refuses a payload of fewer than `needed` bytes. -/
def requireLength (r : Cursor) (needed : Nat) : Except HttpError Unit :=
  if r.payload.length < needed then .error (.tooShort needed r.payload.length) else .ok ()

/-- The length of the opening that tells HTTP from other protocols. -/
def openingLength : Nat := 4

/-- The first four bytes. -/
def opening (r : Cursor) : Except HttpError (List UInt8) :=
  if r.payload.length < openingLength then .error (.tooShort openingLength r.payload.length)
  else .ok (r.payload.take openingLength)

/-! ## Lines -/

/-- The line feed. -/
def lineFeed : UInt8 := 10

/-- A line without one carriage return at its end. -/
def dropReturn (line : List UInt8) : List UInt8 :=
  if line.getLast? == some 13 then line.dropLast else line

/-- The next line and the cursor after it, unless the payload is used up. -/
def takeLine (r : Cursor) : Option (List UInt8 × Cursor) :=
  if r.rest.isEmpty then none
  else
    let line := r.rest.takeWhile (· != lineFeed)
    let r := r.skip line.length
    -- The last line may lack its line feed.
    some (dropReturn line, r.skip (r.rest.take 1).length)

/-- Reading a line leaves less to read. -/
theorem takeLine_length_lt {r r' : Cursor} {line : List UInt8}
    (h : r.takeLine = some (line, r')) : r'.rest.length < r.rest.length := by
  unfold takeLine at h
  split at h
  · simp at h
  · rename_i hne
    have hpos : 0 < r.rest.length := by
      cases hr : r.rest with
      | nil => simp [hr] at hne
      | cons => simp
    simp only [Option.some.injEq, Prod.mk.injEq] at h
    obtain ⟨-, rfl⟩ := h
    simp only [skip, List.length_drop, List.length_take]
    omega

/-- The text of a start line, which must not be blank. -/
def startText (line : List UInt8) : Except HttpError String :=
  if line.isEmpty then .error .missingStartLine
  else
    match Utf8.decode? line with
    | some cs => .ok (String.ofList cs)
    | none => .error .notUtf8

/-- The start line, and the cursor after it, whatever the line is. -/
def startLine (r : Cursor) : Except HttpError String × Cursor :=
  match r.takeLine with
  | none => (.error .missingStartLine, r)
  | some (line, r) => (startText line, r)

/-! ## Header fields -/

/-- Bytes as trimmed text. -/
def fieldText (bs : List UInt8) : String := String.ofList (trim (Utf8.decodeLossy bs))

/-- A field line: a name that is not blank, a colon, a value. -/
def field? (line : List UInt8) : Option Field :=
  let name := line.takeWhile (· != 58)
  if name.length == line.length then none
  else
    let nameText := fieldText name
    if nameText.isEmpty then none else some (nameText, fieldText (line.drop (name.length + 1)))

/-- A line that starts with a space or a tab continues the field before it. -/
def isContinuation : List UInt8 → Bool
  | b :: _ => b == 32 || b == 9
  | [] => false

/-- The fields, newest first, after one more line, and whether the line is a part of the head. A
continuation is added to the newest value after a space. -/
def addLine (fields : List Field) (line : List UInt8) : List Field × Bool :=
  if line.isEmpty then (fields, false)
  else if isContinuation line then
    match fields with
    | [] => ([], false)
    | (name, value) :: fields => ((name, value ++ " " ++ fieldText line) :: fields, true)
  else
    match field? line with
    | some field => (field :: fields, true)
    | none => (fields, false)

/-- Reads lines into `fields`, newest first, up to and including the first one that is no part of
the head. -/
def headersFrom (fields : List Field) (r : Cursor) : List Field × Cursor :=
  match _h : r.takeLine with
  | none => (fields, r)
  | some (line, r') =>
    match addLine fields line with
    | (fields, true) => headersFrom fields r'
    | (fields, false) => (fields, r')
termination_by r.rest.length
decreasing_by exact takeLine_length_lt _h

/-- The header fields from here on in order, and the cursor after the line that ended them. -/
def headers (r : Cursor) : List Field × Cursor :=
  let (fields, r) := headersFrom [] r
  (fields.reverse, r)

end Cursor

end FlowWatch.Http
