/-
HTTP messages as they are written.

A message here is what is put on the wire: a request with its method, target and version, or a response
with its version, code and reason. The start line is text and is written in UTF-8; behind it there may
be any bytes at all. A message is well formed by construction, so reading its bytes gives back what it
was made of. Whether a payload is read at all, its opening decides: those of messages are looked for, and
a payload with none of them is not recognized.
-/
import FlowWatch.Http.Decoding
import FlowWatch.Proofs.Http.Grammar

set_option autoImplicit false

namespace FlowWatch.Http

open Text

/-! ## Messages -/

/-- The request methods whose openings are looked for. -/
def methods : List (List Char) :=
  [['G', 'E', 'T'], ['H', 'E', 'A', 'D'], ['P', 'O', 'S', 'T'], ['P', 'U', 'T'],
    ['D', 'E', 'L', 'E', 'T', 'E'], ['O', 'P', 'T', 'I', 'O', 'N', 'S'], ['P', 'A', 'T', 'C', 'H'],
    ['C', 'O', 'N', 'N', 'E', 'C', 'T'], ['T', 'R', 'A', 'C', 'E']]

/-- A request as it is written. -/
structure RequestMessage where
  method : List Char
  method_mem : method ∈ methods
  target : Target
  version : VersionText
  remainder : Remainder

/-- A response as it is written. The reason may be left out with the space before it. -/
structure ResponseMessage where
  version : VersionText
  code : List Char
  code_length : code.length = 3
  code_isDigit : ∀ c ∈ code, isDigit c = true
  reason : Option (List Char)
  reason_no_feed : ∀ cs ∈ reason, '\n' ∉ cs
  remainder : Remainder

namespace RequestMessage

variable (m : RequestMessage)

/-- The request line. -/
def text : List Char := m.method ++ ' ' :: (m.target.text ++ ' ' :: m.version.text)

/-- The payload that carries the request. -/
def bytes : List UInt8 := Utf8.encode m.text ++ m.remainder.bytes

/-- The host that is asked: the authority of the target, else the first Host field. -/
def host : Option String :=
  m.target.authority <|> hostField? (fieldsOf (linesOf m.remainder.rest))

end RequestMessage

namespace ResponseMessage

variable (m : ResponseMessage)

/-- The status line. -/
def text : List Char :=
  m.version.text ++ ' ' :: (m.code ++ (m.reason.map (' ' :: ·)).getD [])

/-- The payload that carries the response. -/
def bytes : List UInt8 := Utf8.encode m.text ++ m.remainder.bytes

/-- The number of the code. -/
def status : UInt16 := UInt16.ofNat (valueFrom 0 m.code)

end ResponseMessage

/-- What holds of every method: it has no blanks, and its opening is looked for. -/
theorem method_opening : ∀ method ∈ methods, ' ' ∉ method ∧ '\n' ∉ method ∧ method ≠ [] ∧
    Cursor.openingLength ≤ (Utf8.encode (method ++ [' '])).length ∧
    requestOpenings.contains ((Utf8.encode (method ++ [' '])).take Cursor.openingLength) = true := by
  decide

/-! ## Reading back what is written -/

namespace RequestMessage

variable (m : RequestMessage)

theorem no_feed : '\n' ∉ m.text := by
  obtain ⟨-, hmethod, -⟩ := method_opening m.method m.method_mem
  unfold text
  simp only [List.mem_append, List.mem_cons, not_or]
  exact ⟨hmethod, by decide, m.target.no_feed, by decide, m.version.no_feed⟩

/-- The line ends in a digit or a point, so nothing of it is taken for a line end. -/
theorem shown_text : m.remainder.shown m.text = m.text := by
  have hshape : m.text = (m.method ++ ' ' :: m.target.text) ++ ' ' :: m.version.text := by
    unfold text
    rw [List.append_assoc, List.cons_append]
  rw [hshape, m.remainder.shown_append _ (by decide), m.remainder.shown_of_not_mem m.version.no_return]

/-- The line of the request. -/
def line : RequestLine where
  method := m.method
  method_ne_nil := (method_opening m.method m.method_mem).2.2.1
  method_no_space := (method_opening m.method m.method_mem).1
  target := m.target.text
  authority := m.target.authority
  form := m.target.form
  target_no_space := m.target.no_space
  version := m.version

/-- **A request is read as it is written.** -/
theorem parse_bytes : Request.parse m.bytes = .ok {
    method := String.ofList m.method
    target := String.ofList m.target.text
    version := m.version.version
    host := m.host
    headers := fieldsOf (linesOf m.remainder.rest) } := by
  have htext : m.text ≠ [] := List.append_ne_nil_of_left_ne_nil m.line.method_ne_nil _
  have hne := List.append_ne_nil_of_left_ne_nil (Utf8.encode_ne_nil htext) m.remainder.bytes
  obtain ⟨hfirst, hrest⟩ := m.remainder.firstLine_append m.no_feed hne
  rw [m.shown_text] at hfirst
  have hparse := m.line.parse_eq hfirst
  rw [hrest] at hparse
  exact hparse

end RequestMessage

namespace ResponseMessage

variable (m : ResponseMessage)

/-- The reason as it is read. It ends the line, so a carriage return at its end may be lost. -/
def shownReason : List Char := (m.reason.map m.remainder.shown).getD []

/-- The status line as it is read. -/
def line : StatusLine where
  version := m.version
  code := m.code
  code_length := m.code_length
  code_isDigit := m.code_isDigit
  reason := m.reason.map m.remainder.shown

theorem no_feed : '\n' ∉ m.text := by
  unfold text
  simp only [List.mem_append, List.mem_cons, not_or]
  refine ⟨m.version.no_feed, by decide, m.line.not_mem_code (by decide), ?_⟩
  rcases hreason : m.reason with _ | reason
  · exact List.not_mem_nil
  · have hfeed := m.reason_no_feed reason (Option.mem_def.mpr hreason)
    exact List.not_mem_cons_of_ne_of_not_mem (by decide) hfeed

theorem shown_text : m.remainder.shown m.text = m.line.text := by
  have hreturn : '\r' ∉ m.code := m.line.not_mem_code (by decide)
  unfold text line StatusLine.text
  rw [m.remainder.shown_append _ (by decide)]
  rcases m.reason with _ | reason
  · show _ ++ ' ' :: m.remainder.shown (m.code ++ []) = _
    rw [List.append_nil, m.remainder.shown_of_not_mem hreturn]
    exact congrArg (m.version.text ++ ' ' :: ·) (List.append_nil m.code).symm
  · show _ ++ ' ' :: m.remainder.shown (m.code ++ ' ' :: reason) = _
    rw [m.remainder.shown_append _ (by decide)]
    rfl

/-- **A response is read as it is written.** -/
theorem parse_bytes : Response.parse m.bytes = .ok {
    version := m.version.version
    status := m.status
    reason := String.ofList m.shownReason
    headers := fieldsOf (linesOf m.remainder.rest) } := by
  have htext : m.text ≠ [] := List.append_ne_nil_of_right_ne_nil _ (List.cons_ne_nil _ _)
  have hne := List.append_ne_nil_of_left_ne_nil (Utf8.encode_ne_nil htext) m.remainder.bytes
  obtain ⟨hfirst, hrest⟩ := m.remainder.firstLine_append m.no_feed hne
  rw [m.shown_text] at hfirst
  have hparse := m.line.parse_eq hfirst
  rw [hrest] at hparse
  exact hparse

end ResponseMessage

/-! ## Openings -/

/-- Whether a payload opens like HTTP. -/
def isGated (payload : List UInt8) : Bool :=
  decide (minimumLength ≤ payload.length) &&
    (responseOpening :: requestOpenings).contains (payload.take Cursor.openingLength)

/-- A payload that is long enough is read as its opening says. -/
theorem readPayload_of_long {payload : List UInt8} (h : minimumLength ≤ payload.length)
    (seen : Instant) :
    readPayload payload seen =
      if payload.take Cursor.openingLength == responseOpening then
        (Response.parse payload).map fun r => .response ⟨protocolName, r.status, r.reason, seen⟩
      else if requestOpenings.contains (payload.take Cursor.openingLength) then
        (Request.parse payload).map fun r =>
          .request ⟨protocolName, r.method, r.target, r.host, seen⟩
      else .error .notHttp := by
  have hrequire : (Cursor.new payload).requireLength minimumLength = .ok () :=
    if_neg (Nat.not_lt.mpr h)
  have hopening : (Cursor.new payload).opening = .ok (payload.take Cursor.openingLength) := by
    apply if_neg
    exact Nat.not_lt.mpr (Nat.le_trans (by decide) h)
  unfold readPayload
  dsimp only
  rw [hrequire, hopening]
  dsimp only [bind, Except.bind]
  split_ifs
  · rcases Response.parse payload with _ | _ <;> rfl
  · rcases Request.parse payload with _ | _ <;> rfl
  · rfl

/-- **A payload that does not open like HTTP is not recognized.** -/
theorem decode_of_not_gated {payload : List UInt8} (h : isGated payload = false) (name : String)
    (seen : Instant) : (decoder name).decode payload seen = .error .notRecognized := by
  unfold decoder
  by_cases hlong : minimumLength ≤ payload.length
  · unfold isGated at h
    rw [decide_eq_true hlong, Bool.true_and, List.contains_cons, Bool.or_eq_false_iff] at h
    dsimp only
    rw [readPayload_of_long hlong, h.1, h.2]
    rfl
  · have hshort : (Cursor.new payload).requireLength minimumLength =
        .error (.tooShort minimumLength payload.length) := if_pos (Nat.lt_of_not_le hlong)
    unfold readPayload
    dsimp only
    rw [hshort]
    rfl

/-- The opening of a payload is that of its text. -/
theorem take_encode {head : List Char} (h : Cursor.openingLength ≤ (Utf8.encode head).length)
    (tail : List Char) (rest : List UInt8) :
    (Utf8.encode (head ++ tail) ++ rest).take Cursor.openingLength =
      (Utf8.encode head).take Cursor.openingLength := by
  rw [Utf8.encode_append, List.append_assoc, List.take_append_of_le_length h]

theorem RequestMessage.opening (m : RequestMessage) : minimumLength ≤ m.bytes.length ∧
    requestOpenings.contains (m.bytes.take Cursor.openingLength) = true := by
  obtain ⟨-, -, -, hlength, hlisted⟩ := method_opening m.method m.method_mem
  have hshape : m.text = (m.method ++ [' ']) ++ (m.target.text ++ ' ' :: m.version.text) := by
    unfold RequestMessage.text
    rw [List.append_assoc]
    rfl
  constructor
  · have hversion : minimumLength ≤ m.version.text.length := by
      unfold VersionText.text
      rw [List.length_append]
      exact Nat.le_add_right 5 _
    have hsuffix : m.version.text <:+ m.text :=
      ⟨m.method ++ ' ' :: (m.target.text ++ [' ']), by simp [RequestMessage.text]⟩
    have hbytes : (Utf8.encode m.text).length ≤ m.bytes.length := by
      unfold RequestMessage.bytes
      rw [List.length_append]
      exact Nat.le_add_right _ _
    exact (hversion.trans hsuffix.length_le).trans ((Utf8.length_le_encode m.text).trans hbytes)
  · unfold RequestMessage.bytes
    rw [hshape, take_encode hlength]
    exact hlisted

theorem ResponseMessage.opening (m : ResponseMessage) : minimumLength ≤ m.bytes.length ∧
    m.bytes.take Cursor.openingLength = responseOpening := by
  obtain ⟨tail, hshape⟩ : ∃ tail, m.text = versionOpening ++ tail := by
    refine ⟨m.version.major.text ++ '.' :: m.version.minor.text ++
      ' ' :: (m.code ++ (m.reason.map (' ' :: ·)).getD []), ?_⟩
    unfold ResponseMessage.text VersionText.text
    rw [List.append_assoc versionOpening]
  unfold ResponseMessage.bytes
  rw [hshape]
  constructor
  · have hversion : (Utf8.encode versionOpening).length = minimumLength := by decide
    rw [Utf8.encode_append, List.append_assoc, List.length_append, hversion]
    exact Nat.le_add_right _ _
  · exact take_encode (by decide) tail _

theorem RequestMessage.isGated_bytes (m : RequestMessage) : isGated m.bytes = true := by
  obtain ⟨hlong, hopening⟩ := m.opening
  unfold isGated
  rw [decide_eq_true hlong, List.contains_cons, hopening, Bool.or_true]
  rfl

theorem ResponseMessage.isGated_bytes (m : ResponseMessage) : isGated m.bytes = true := by
  obtain ⟨hlong, hopening⟩ := m.opening
  unfold isGated
  rw [decide_eq_true hlong, hopening]
  rfl

/-- **The decoder sees a request** with its method, target and host. -/
theorem RequestMessage.accept?_bytes (m : RequestMessage) (name : String) (seen : Instant) :
    (decoder name).accept? m.bytes seen = some (.request ⟨protocolName, String.ofList m.method,
      String.ofList m.target.text, m.host, seen⟩) := by
  obtain ⟨hlong, hopening⟩ := m.opening
  have hother : (m.bytes.take Cursor.openingLength == responseOpening) = false := by
    apply beq_eq_false_iff_ne.mpr
    intro hresponse
    rw [hresponse] at hopening
    exact absurd hopening (by decide)
  have hread := readPayload_of_long hlong seen
  rw [hother, if_neg Bool.false_ne_true, hopening, if_pos rfl, m.parse_bytes] at hread
  unfold Decoder.accept? decoder
  dsimp only
  rw [hread]
  rfl

/-- **The decoder sees a response** with its status. -/
theorem ResponseMessage.accept?_bytes (m : ResponseMessage) (name : String) (seen : Instant) :
    (decoder name).accept? m.bytes seen = some (.response ⟨protocolName, m.status,
      String.ofList m.shownReason, seen⟩) := by
  obtain ⟨hlong, hopening⟩ := m.opening
  have hread := readPayload_of_long hlong seen
  rw [hopening, beq_self_eq_true, if_pos rfl, m.parse_bytes] at hread
  unfold Decoder.accept? decoder
  dsimp only
  rw [hread]
  rfl

end FlowWatch.Http
