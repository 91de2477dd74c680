/-
Messages written and read back.

A request or a response is put in writing: a start line in UTF-8, fields, a blank line, and anything at
all behind it. Every line may end with a carriage return before its line feed or without one, and the
values of fields may go on over lines. Whatever is chosen, reading the bytes gives back the method, the
target, the version and the fields, or the version, the status, the reason and the fields. The host is the
authority of the target; without one it is the value of the first field that is named `Host`.
-/
import FlowWatch.Proofs.Http.Heads

set_option autoImplicit false

namespace FlowWatch.Http

open Text

/-! ## Versions in digits -/

/-- A number as a component. -/
def Component.ofNat (n : Nat) (h : n ≤ greatestComponent) : Component where
  plus := false
  digits := decimal n
  digits_ne_nil := decimal_ne_nil n
  digits_isDigit := fun _ => isDigit_of_mem_decimal
  value_le := (valueFrom_decimal n).trans_le h

/-- A version neither component of which is too great. -/
structure Version.IsBounded (v : Version) : Prop where
  major_le : v.major ≤ greatestComponent
  minor_le : v.minor ≤ greatestComponent

/-- The version in decimal digits. -/
def Version.written (v : Version) (h : v.IsBounded) : VersionText :=
  ⟨.ofNat v.major h.major_le, .ofNat v.minor h.minor_le⟩

theorem Version.version_written (v : Version) (h : v.IsBounded) : (v.written h).version = v := by
  unfold Version.written VersionText.version Component.ofNat
  rw [valueFrom_decimal, valueFrom_decimal]

/-! ## The Host field -/

theorem toNat_toLower (c : Char) :
    c.toLower.toNat = if 65 ≤ c.toNat ∧ c.toNat ≤ 90 then c.toNat + 32 else c.toNat := by
  have hrange : (c.val ≥ 'A'.val ∧ c.val ≤ 'Z'.val) ↔ (65 ≤ c.toNat ∧ c.toNat ≤ 90) := by
    rw [ge_iff_le, UInt32.le_iff_toNat_le, UInt32.le_iff_toNat_le]
    rfl
  unfold Char.toLower
  split_ifs with hval hnat hnat
  · show (c.val + ('a'.val - 'A'.val)).toNat = c.toNat + 32
    rw [UInt32.toNat_add, show ('a'.val - 'A'.val).toNat = 32 from rfl]
    exact Nat.mod_eq_of_lt (show c.toNat + 32 < 2 ^ 32 by omega)
  · exact absurd (hrange.mp hval) hnat
  · exact absurd (hrange.mpr hnat) hval
  · rfl

/-- A small letter, or the capital it has. -/
theorem toLower_eq_iff {small capital : Char} (hsmall : 97 ≤ small.toNat ∧ small.toNat ≤ 122)
    (hcapital : capital.toNat + 32 = small.toNat) (c : Char) :
    c.toLower = small ↔ c = small ∨ c = capital := by
  rw [← Char.toNat_inj, ← Char.toNat_inj, ← Char.toNat_inj, toNat_toLower]
  split_ifs <;> omega

/-- The name is `host`, in small letters, capitals or both. -/
def NamesHost (name : String) : Prop :=
  ∃ h ∈ ['h', 'H'], ∃ o ∈ ['o', 'O'], ∃ s ∈ ['s', 'S'], ∃ t ∈ ['t', 'T'],
    name.toList = [h, o, s, t]

theorem sameName_host_iff (name : String) : sameName name "host" = true ↔ NamesHost name := by
  have hletters : sameName name "host" = true ↔
      name.toList.map Char.toLower = ['h', 'o', 's', 't'] := beq_iff_eq
  have hh : ∀ c : Char, c.toLower = 'h' ↔ c = 'h' ∨ c = 'H' := toLower_eq_iff (by decide) rfl
  have ho : ∀ c : Char, c.toLower = 'o' ↔ c = 'o' ∨ c = 'O' := toLower_eq_iff (by decide) rfl
  have hs : ∀ c : Char, c.toLower = 's' ↔ c = 's' ∨ c = 'S' := toLower_eq_iff (by decide) rfl
  have ht : ∀ c : Char, c.toLower = 't' ↔ c = 't' ∨ c = 'T' := toLower_eq_iff (by decide) rfl
  rw [hletters]
  constructor
  · intro hmap
    obtain ⟨h, tail, hname, h1, hmap⟩ := List.map_eq_cons_iff.mp hmap
    obtain ⟨o, tail, rfl, h2, hmap⟩ := List.map_eq_cons_iff.mp hmap
    obtain ⟨s, tail, rfl, h3, hmap⟩ := List.map_eq_cons_iff.mp hmap
    obtain ⟨t, tail, rfl, h4, hmap⟩ := List.map_eq_cons_iff.mp hmap
    obtain rfl := List.map_eq_nil_iff.mp hmap
    exact ⟨h, by simpa using (hh h).mp h1, o, by simpa using (ho o).mp h2,
      s, by simpa using (hs s).mp h3, t, by simpa using (ht t).mp h4, hname⟩
  · rintro ⟨h, h1, o, h2, s, h3, t, h4, hname⟩
    rw [hname, List.map_cons, List.map_cons, List.map_cons, List.map_cons, List.map_nil,
      (hh h).mpr (by simpa using h1), (ho o).mpr (by simpa using h2),
      (hs s).mpr (by simpa using h3), (ht t).mpr (by simpa using h4)]

/-- The value of the first Host field, if there is one. -/
inductive FirstHost : List Field → Option String → Prop where
  | absent {fields : List Field} (h : ∀ f ∈ fields, ¬NamesHost f.1) : FirstHost fields none
  | present {before after : List Field} {name value : String}
    (hbefore : ∀ f ∈ before, ¬NamesHost f.1) (hname : NamesHost name) :
    FirstHost (before ++ (name, value) :: after) (some value)

/-- **The host that is read off the fields is the value of the first Host field.** -/
theorem firstHost_iff {fields : List Field} {host : Option String} :
    FirstHost fields host ↔ hostField? fields = host := by
  unfold hostField?
  constructor
  · intro h
    cases h with
    | absent hother =>
      rw [List.find?_eq_none.mpr fun f hf => mt (sameName_host_iff f.1).mp (hother f hf)]
      rfl
    | @present before after name value hbefore hname =>
      have hskip : ∀ f ∈ before, (!sameName f.1 "host") = true := by
        intro f hf
        rw [Bool.not_eq_true', Bool.eq_false_iff, ne_eq, sameName_host_iff]
        exact hbefore f hf
      have hfind : (before ++ (name, value) :: after).find? (fun f => sameName f.1 "host") =
          some (name, value) :=
        List.find?_eq_some_iff_append.mpr
          ⟨(sameName_host_iff name).mpr hname, before, after, rfl, hskip⟩
      rw [hfind]
      rfl
  · rintro rfl
    rcases hfind : fields.find? fun f => sameName f.1 "host" with _ | ⟨name, value⟩
    · rw [hfind]
      refine .absent fun f hf hname => ?_
      exact List.find?_eq_none.mp hfind f hf ((sameName_host_iff f.1).mpr hname)
    · obtain ⟨hname, before, after, rfl, hbefore⟩ := List.find?_eq_some_iff_append.mp hfind
      rw [hfind]
      refine .present (fun f hf hhost => ?_) ((sameName_host_iff name).mp hname)
      have hother := hbefore f hf
      rw [(sameName_host_iff f.1).mpr hhost] at hother
      exact absurd hother (by decide)

/-! ## Messages -/

/-- A request as it is written. -/
structure WrittenRequest where
  method : List Char
  method_ne_nil : method ≠ []
  method_no_space : ' ' ∉ method
  method_no_feed : '\n' ∉ method
  target : Target
  version : Version
  bounded : version.IsBounded
  ending : LineEnd
  head : WrittenHead

/-- A response as it is written. Its code has three digits, and the reason may be left out with the space
before it. -/
structure WrittenResponse where
  version : Version
  bounded : version.IsBounded
  hundreds : Fin 10
  tens : Fin 10
  ones : Fin 10
  reason : Option (List Char)
  reason_no_feed : ∀ cs ∈ reason, '\n' ∉ cs
  reason_no_return : ∀ cs ∈ reason, cs.getLast? ≠ some '\r'
  ending : LineEnd
  head : WrittenHead

/-- The fields that are meant. -/
def WrittenHead.headers (h : WrittenHead) : List Field := h.fields.map WrittenField.field

namespace WrittenRequest

variable (r : WrittenRequest)

/-- The request line. -/
def line : RequestLine where
  method := r.method
  method_ne_nil := r.method_ne_nil
  method_no_space := r.method_no_space
  target := r.target.text
  authority := r.target.authority
  form := r.target.form
  target_no_space := r.target.no_space
  version := r.version.written r.bounded

/-- The payload that carries the request. -/
def bytes : List UInt8 := writeLines [(r.line.text, r.ending)] r.head.bytes

end WrittenRequest

namespace WrittenResponse

variable (r : WrittenResponse)

/-- The status line. -/
def line : StatusLine where
  version := r.version.written r.bounded
  code := [digitChar r.hundreds, digitChar r.tens, digitChar r.ones]
  code_length := rfl
  code_isDigit := by
    simp only [List.mem_cons, List.not_mem_nil, or_false]
    rintro c (rfl | rfl | rfl)
    · exact isDigit_digitChar r.hundreds.isLt
    · exact isDigit_digitChar r.tens.isLt
    · exact isDigit_digitChar r.ones.isLt
  reason := r.reason

/-- The payload that carries the response. -/
def bytes : List UInt8 := writeLines [(r.line.text, r.ending)] r.head.bytes

/-- The number of the code. -/
def status : Nat := 100 * r.hundreds + 10 * r.tens + r.ones

end WrittenResponse

/-! ## Reading back what is written -/

/-- A start line that is read as it is written is the first line, and the fields are behind it. -/
theorem firstLine_written {text : List Char} (hfeed : '\n' ∉ text)
    (hreturn : dropReturnChar text = text) (ending : LineEnd) (head : WrittenHead) :
    firstLine (writeLines [(text, ending)] head.bytes) = Utf8.encode text ∧
      fieldsOf (linesOf (writeLines [(text, ending)] head.bytes)).tail = head.headers := by
  obtain ⟨hfirst, htail⟩ := (ending.followedBy head.bytes).firstLine_append hfeed
    (ending.append_followedBy_ne_nil head.bytes _)
  rw [ending.shown_followedBy _ hreturn] at hfirst
  rw [ending.rest_followedBy] at htail
  refine ⟨hfirst, ?_⟩
  show fieldsOf (linesOf (Utf8.encode text ++ (ending.followedBy head.bytes).bytes)).tail = _
  rw [htail]
  exact head.fieldsOf_bytes

namespace WrittenRequest

variable (r : WrittenRequest)

theorem no_feed : '\n' ∉ r.line.text := by
  unfold RequestLine.text
  simp only [List.mem_append, List.mem_cons, not_or]
  exact ⟨r.method_no_feed, by decide, r.target.no_feed, by decide, r.line.version.no_feed⟩

/-- The version ends the line, and there is no carriage return in it. -/
theorem dropReturnChar_text : dropReturnChar r.line.text = r.line.text := by
  have hshape : r.line.text = (r.method ++ ' ' :: r.target.text) ++ ' ' :: r.line.version.text := by
    unfold RequestLine.text
    rw [List.append_assoc, List.cons_append]
    rfl
  rw [hshape, dropReturnChar_append _ (by decide), dropReturnChar_of_not_mem r.line.version.no_return]

theorem parse_bytes : Request.parse r.bytes = .ok {
    method := String.ofList r.method
    target := String.ofList r.target.text
    version := r.version
    host := r.target.authority <|> hostField? r.head.headers
    headers := r.head.headers } := by
  obtain ⟨hfirst, hfields⟩ := firstLine_written r.no_feed r.dropReturnChar_text r.ending r.head
  have hparse := r.line.parse_eq hfirst
  have hversion : r.line.version.version = r.version := r.version.version_written r.bounded
  rw [hfields, hversion] at hparse
  exact hparse

end WrittenRequest

namespace WrittenResponse

variable (r : WrittenResponse)

theorem no_feed : '\n' ∉ r.line.text := by
  unfold StatusLine.text
  simp only [List.mem_append, List.mem_cons, not_or]
  refine ⟨r.line.version.no_feed, by decide, r.line.not_mem_code (by decide), ?_⟩
  show '\n' ∉ (r.reason.map (' ' :: ·)).getD []
  rcases hreason : r.reason with _ | reason
  · exact List.not_mem_nil
  · have hfeed := r.reason_no_feed reason (Option.mem_def.mpr hreason)
    exact List.not_mem_cons_of_ne_of_not_mem (by decide) hfeed

/-- The line ends in the reason, or in a digit. -/
theorem dropReturnChar_text : dropReturnChar r.line.text = r.line.text := by
  have hcode := dropReturnChar_of_not_mem (r.line.not_mem_code (a := '\r') (by decide))
  unfold StatusLine.text
  rw [dropReturnChar_append _ (by decide)]
  show _ ++ ' ' :: dropReturnChar (_ ++ (r.reason.map (' ' :: ·)).getD []) =
    _ ++ ' ' :: (_ ++ (r.reason.map (' ' :: ·)).getD [])
  rcases hreason : r.reason with _ | reason
  · rw [Option.map_none, Option.getD_none, List.append_nil, hcode]
  · have hreturn : dropReturnChar reason = reason :=
      if_neg (r.reason_no_return reason (Option.mem_def.mpr hreason))
    rw [Option.map_some, Option.getD_some, dropReturnChar_append _ (by decide), hreturn]

theorem value_code : valueFrom 0 r.line.code = r.status := by
  have hhundreds := digitValue_digitChar r.hundreds.isLt
  have htens := digitValue_digitChar r.tens.isLt
  have hones := digitValue_digitChar r.ones.isLt
  unfold status line valueFrom
  rw [List.foldl_cons, List.foldl_cons, List.foldl_cons, List.foldl_nil, hhundreds, htens, hones]
  omega

theorem parse_bytes : Response.parse r.bytes = .ok {
    version := r.version
    status := UInt16.ofNat r.status
    reason := String.ofList (r.reason.getD [])
    headers := r.head.headers } := by
  obtain ⟨hfirst, hfields⟩ := firstLine_written r.no_feed r.dropReturnChar_text r.ending r.head
  have hparse := r.line.parse_eq hfirst
  have hversion : r.line.version.version = r.version := r.version.version_written r.bounded
  rw [hfields, hversion, r.value_code] at hparse
  exact hparse

end WrittenResponse

/-- **Reading undoes writing.** A request is read back with its method, its target, its version and its
fields; its host is the authority of the target, or else the first Host field. A response is read back with
its version, its status, its reason and its fields. -/
theorem read_back_as_written :
    (∀ r : WrittenRequest, ∃ host, FirstHost r.head.headers host ∧
      Request.parse r.bytes = .ok {
        method := String.ofList r.method
        target := String.ofList r.target.text
        version := r.version
        host := r.target.authority <|> host
        headers := r.head.headers }) ∧
    ∀ r : WrittenResponse,
      Response.parse r.bytes = .ok {
        version := r.version
        status := UInt16.ofNat r.status
        reason := String.ofList (r.reason.getD [])
        headers := r.head.headers } :=
  ⟨fun r => ⟨hostField? r.head.headers, firstHost_iff.mpr rfl, r.parse_bytes⟩,
    fun r => r.parse_bytes⟩

/-- `OPTIONS * HTTP/1.1` with a folded field, lines that end in either way, and a byte behind the head. -/
def foldedRequest : WrittenRequest where
  method := ['O', 'P', 'T', 'I', 'O', 'N', 'S']
  method_ne_nil := by decide
  method_no_space := by decide
  method_no_feed := by decide
  target := ⟨['*'], none, .asterisk, by decide, by decide⟩
  version := ⟨1, 1⟩
  bounded := ⟨by decide, by decide⟩
  ending := .returnFeed
  head :=
    { fields := [
        { name := ['h', 'O', 'S', 't']
          name_ne_nil := by decide
          name_trimmed := rfl
          name_no_colon := by decide
          name_no_feed := by decide
          first := ⟨[' '], List.forall_mem_singleton.mpr (.inl rfl), ['a'], rfl, by decide, .feed⟩
          more := [⟨['\t'], List.forall_mem_singleton.mpr (.inr rfl), ['b'], rfl, by decide, .returnFeed⟩]
          more_lead := List.forall_mem_singleton.mpr (List.cons_ne_nil _ _) }]
      blank := .returnFeed
      body := [98] }

theorem folded_request_read_back :
    foldedRequest.bytes = Utf8.encode "OPTIONS * HTTP/1.1\r\nhOSt: a\n\tb\r\n\r\nb".toList ∧
      Request.parse foldedRequest.bytes =
        .ok ⟨"OPTIONS", "*", ⟨1, 1⟩, some "a b", [("hOSt", "a b")]⟩ := by
  obtain ⟨host, hhost, hparse⟩ := read_back_as_written.1 foldedRequest
  have hheaders : foldedRequest.head.headers = [("hOSt", "a b")] := by decide
  have hversion : foldedRequest.line.version.text = "HTTP/1.1".toList := by
    show versionOpening ++ (decimal 1 ++ '.' :: decimal 1) = _
    rw [show decimal 1 = ['1'] from numeral_of_lt (by decide)]
    rfl
  have hvalue : host = some "a b" := by
    rw [hheaders] at hhost
    exact (firstHost_iff.mp hhost).symm
  rw [hheaders, hvalue] at hparse
  refine ⟨?_, hparse⟩
  unfold WrittenRequest.bytes RequestLine.text
  rw [hversion]
  decide

end FlowWatch.Http
