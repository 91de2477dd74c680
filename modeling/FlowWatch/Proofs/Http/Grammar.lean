/-
The start lines that are accepted.

A request line is a method, a target and a version with a space between them, and a status line is a
version, a code of three digits and, if there is one, a reason. These two shapes are what the readers
accept, and nothing else: a payload is read if and only if its first line is the encoding of such a line.
The components of a version may carry a plus sign, which is more than `HTTP/major.minor` says.
-/
import FlowWatch.Proofs.Http.StartLines
import FlowWatch.Proofs.Text.Numerals

set_option autoImplicit false

namespace FlowWatch.Http

open Text

/-- The bytes of a payload up to the first line feed, without one carriage return at their end. -/
def firstLine (payload : List UInt8) : List UInt8 :=
  Cursor.dropReturn (payload.takeWhile (· != Cursor.lineFeed))

/-- A request line. -/
structure RequestLine where
  method : List Char
  method_ne_nil : method ≠ []
  method_no_space : ' ' ∉ method
  target : List Char
  authority : Option String
  form : TargetForm target authority
  target_no_space : ' ' ∉ target
  version : VersionText

/-- A status line. The reason may be left out with the space before it. -/
structure StatusLine where
  version : VersionText
  code : List Char
  code_length : code.length = 3
  code_isDigit : ∀ c ∈ code, isDigit c = true
  reason : Option (List Char)

/-- The line as it is written. -/
def RequestLine.text (l : RequestLine) : List Char :=
  l.method ++ ' ' :: (l.target ++ ' ' :: l.version.text)

/-- The line as it is written. -/
def StatusLine.text (l : StatusLine) : List Char :=
  l.version.text ++ ' ' :: (l.code ++ (l.reason.map (' ' :: ·)).getD [])

/-- No component of the version carries a sign. -/
def VersionText.IsPlain (v : VersionText) : Prop := v.major.plus = false ∧ v.minor.plus = false

theorem VersionText.IsPlain.no_plus {v : VersionText} (h : v.IsPlain) : '+' ∉ v.text := by
  have hdigits : ∀ c : Component, c.plus = false → '+' ∉ c.text := by
    intro c hc hmem
    rw [Component.text, hc, if_neg Bool.false_ne_true] at hmem
    exact absurd (c.digits_isDigit '+' hmem) (by decide)
  unfold VersionText.text
  simp only [List.mem_append, List.mem_cons, not_or]
  exact ⟨by decide, hdigits _ h.1, by decide, hdigits _ h.2⟩

/-! ## The first line of a payload -/

theorem linesOf_eq {payload : List UInt8} (h : payload ≠ []) :
    ∃ lines, linesOf payload = firstLine payload :: lines := by
  unfold linesOf
  rw [piecesOf_eq h]
  exact ⟨_, rfl⟩

/-- The start line is the first line, and the fields are those of the lines behind it. -/
theorem startLine_eq (payload : List UInt8) :
    ∃ cursor, (Cursor.new payload).startLine = (Cursor.startText (firstLine payload), cursor) ∧
      cursor.headers.1 = fieldsOf (linesOf payload).tail := by
  have htake := (Cursor.new payload).takeLine_eq
  have hrest : (Cursor.new payload).rest = payload := rfl
  rw [hrest] at htake
  by_cases hempty : payload = []
  · subst hempty
    exact ⟨Cursor.new [], rfl, Cursor.headers_eq _⟩
  · obtain ⟨lines, hlines⟩ := linesOf_eq hempty
    rw [hlines] at htake
    obtain ⟨cursor, hline, hlater, -⟩ := htake
    refine ⟨cursor, ?_, ?_⟩
    · unfold Cursor.startLine
      rw [hline]
    · rw [cursor.headers_eq, hlater, hlines, List.tail_cons]

/-- A line is taken for text if it is the encoding of one that is not empty. -/
theorem startText_eq_ok_iff {line : List UInt8} {text : String} :
    Cursor.startText line = .ok text ↔ line = Utf8.encode text.toList ∧ text.toList ≠ [] := by
  unfold Cursor.startText
  rcases line with _ | ⟨b, line⟩
  · rw [if_pos List.isEmpty_nil]
    refine iff_of_false (by simp) ?_
    rintro ⟨hline, hne⟩
    exact Utf8.encode_ne_nil hne hline.symm
  · rw [if_neg (by simp)]
    constructor
    · intro h
      rcases hdecode : Utf8.decode? (b :: line) with _ | cs
      · rw [hdecode] at h
        exact absurd h (by simp)
      · rw [hdecode] at h
        obtain rfl := Except.ok.inj h
        rw [String.toList_ofList]
        have hbytes := Utf8.decode?_eq_some_iff.mp hdecode
        refine ⟨hbytes, ?_⟩
        rintro rfl
        exact absurd hbytes (by simp [Utf8.encode])
    · rintro ⟨hline, -⟩
      rw [Utf8.decode?_eq_some_iff.mpr hline]
      exact congrArg _ (String.ofList_toList)

/-- The first line of a written text is the text as it is shown, and the others are behind it. -/
theorem Remainder.firstLine_append {text : List Char} (hfeed : '\n' ∉ text) (r : Remainder)
    (hne : Utf8.encode text ++ r.bytes ≠ []) :
    firstLine (Utf8.encode text ++ r.bytes) = Utf8.encode (r.shown text) ∧
      (linesOf (Utf8.encode text ++ r.bytes)).tail = linesOf r.rest := by
  have hlines := r.linesOf_text hfeed hne
  obtain ⟨lines, hfirst⟩ := linesOf_eq hne
  obtain ⟨hshown, -⟩ := List.cons.inj (hfirst.symm.trans hlines)
  refine ⟨hshown, ?_⟩
  rw [hlines, List.tail_cons]

/-! ## Words -/

/-- The words of a line make up the line. -/
theorem threeWords_eq_some {line first second : List Char} {third : Option (List Char)}
    (h : threeWords line = (first, some (second, third))) :
    ' ' ∉ first ∧ ' ' ∉ second ∧
      line = first ++ ' ' :: (second ++ (third.map (' ' :: ·)).getD []) := by
  unfold threeWords at h
  dsimp only at h
  obtain ⟨hfirst, hcut⟩ := takeWhile_cases ' ' line
  rcases hcut with ⟨hdrop, -⟩ | ⟨rest, hdrop, hline⟩
  · rw [hdrop] at h
    exact absurd (congrArg Prod.snd h) (by simp)
  · rw [hdrop] at h
    obtain ⟨rfl, hmore⟩ := Prod.mk.inj h
    obtain ⟨hsecond, hcut⟩ := takeWhile_cases ' ' rest
    rcases hcut with ⟨hdrop', hrest⟩ | ⟨later, hdrop', hrest⟩
    · rw [Option.map_some, hdrop'] at hmore
      obtain ⟨rfl, rfl⟩ := Prod.mk.inj (Option.some.inj hmore)
      refine ⟨hfirst, hsecond, ?_⟩
      rw [Option.map_none, Option.getD_none, List.append_nil, ← hrest]
      exact hline
    · rw [Option.map_some, hdrop'] at hmore
      obtain ⟨rfl, rfl⟩ := Prod.mk.inj (Option.some.inj hmore)
      refine ⟨hfirst, hsecond, ?_⟩
      rw [Option.map_some, Option.getD_some, ← hrest]
      exact hline

/-! ## Requests -/

section Requests

variable {payload : List UInt8}

/-- **A request line is read as it is written**, and the lines behind it are its fields. -/
theorem RequestLine.parse_eq (l : RequestLine) (h : firstLine payload = Utf8.encode l.text) :
    Request.parse payload = .ok {
      method := String.ofList l.method
      target := String.ofList l.target
      version := l.version.version
      host := l.authority <|> hostField? (fieldsOf (linesOf payload).tail)
      headers := fieldsOf (linesOf payload).tail } := by
  obtain ⟨cursor, hline, hheaders⟩ := startLine_eq payload
  have hread : Cursor.startText (firstLine payload) = .ok (String.ofList l.text) := by
    rw [startText_eq_ok_iff, String.toList_ofList]
    exact ⟨h, List.append_ne_nil_of_left_ne_nil l.method_ne_nil _⟩
  have hwords : threeWords l.text = (l.method, some (l.target, some l.version.text)) :=
    threeWords_of_three l.method_no_space l.target_no_space l.version.text
  have hblank : (l.method.isEmpty || l.target.isEmpty) = false := by
    rw [List.isEmpty_eq_false_iff.mpr l.method_ne_nil, List.isEmpty_eq_false_iff.mpr l.form.ne_nil]
    rfl
  unfold Request.parse
  rw [hline, hread]
  dsimp only [bind, Except.bind]
  rw [String.toList_ofList, hwords]
  dsimp only
  rw [hblank, if_neg Bool.false_ne_true, l.version.parse_text, l.form.authority_eq, hheaders]
  rfl

/-- **No other line is read as a request line.** -/
theorem RequestLine.of_parse {r : Request} (h : Request.parse payload = .ok r) :
    ∃ l : RequestLine, firstLine payload = Utf8.encode l.text := by
  obtain ⟨cursor, hline, -⟩ := startLine_eq payload
  unfold Request.parse at h
  rw [hline] at h
  dsimp only [bind, Except.bind] at h
  rcases hread : Cursor.startText (firstLine payload) with e | text
  · rw [hread] at h
    exact absurd h (by simp)
  · rw [hread] at h
    dsimp only at h
    split at h
    · rename_i method target version hwords
      split_ifs at h with hblank
      rcases hversion : Version.parse version with e | v
      · rw [hversion] at h
        exact absurd h (by simp)
      · rcases hauthority : Http.authority target with e | authority
        · rw [hversion, hauthority] at h
          exact absurd h (by simp)
        · obtain ⟨hmethod, htarget, htext⟩ := threeWords_eq_some hwords
          obtain ⟨w, rfl, -⟩ := VersionText.parse_eq_ok_iff.mp hversion
          simp only [Bool.or_eq_true, List.isEmpty_iff, not_or] at hblank
          refine ⟨⟨method, hblank.1, hmethod, target, authority, authority_eq_ok_iff.mp hauthority,
            htarget, w⟩, ?_⟩
          rw [(startText_eq_ok_iff.mp hread).1, htext]
          rfl
    · exact absurd h (by simp)

end Requests

/-! ## Responses -/

section Responses

variable {payload : List UInt8}

theorem StatusLine.not_mem_code (l : StatusLine) {a : Char} (ha : isDigit a = false) : a ∉ l.code := by
  intro hmem
  rw [l.code_isDigit a hmem] at ha
  exact absurd ha (by decide)

theorem StatusLine.status?_code (l : StatusLine) :
    status? l.code = some (UInt16.ofNat (valueFrom 0 l.code)) := by
  have hne : l.code ≠ [] := by
    apply List.ne_nil_of_length_pos
    rw [l.code_length]
    decide
  unfold status?
  rw [l.code_length, value?_of_digits hne l.code_isDigit]
  rfl

/-- **A status line is read as it is written**, and the lines behind it are its fields. -/
theorem StatusLine.parse_eq (l : StatusLine) (h : firstLine payload = Utf8.encode l.text) :
    Response.parse payload = .ok {
      version := l.version.version
      status := UInt16.ofNat (valueFrom 0 l.code)
      reason := String.ofList (l.reason.getD [])
      headers := fieldsOf (linesOf payload).tail } := by
  obtain ⟨cursor, hline, hheaders⟩ := startLine_eq payload
  have hread : Cursor.startText (firstLine payload) = .ok (String.ofList l.text) := by
    rw [startText_eq_ok_iff, String.toList_ofList]
    exact ⟨h, List.append_ne_nil_of_right_ne_nil _ (List.cons_ne_nil _ _)⟩
  have hversion := l.version.no_space
  have hcode : ' ' ∉ l.code := l.not_mem_code (by decide)
  have hwords : threeWords l.text = (l.version.text, some (l.code, l.reason)) := by
    unfold StatusLine.text
    rcases l.reason with _ | reason
    · rw [Option.map_none, Option.getD_none, List.append_nil]
      exact threeWords_of_two hversion hcode
    · exact threeWords_of_three hversion hcode reason
  unfold Response.parse
  rw [hline, hread]
  dsimp only [bind, Except.bind]
  rw [String.toList_ofList, hwords]
  dsimp only
  rw [l.status?_code]
  dsimp only
  rw [l.version.parse_text, hheaders]
  rfl

/-- **No other line is read as a status line.** -/
theorem StatusLine.of_parse {r : Response} (h : Response.parse payload = .ok r) :
    ∃ l : StatusLine, firstLine payload = Utf8.encode l.text := by
  obtain ⟨cursor, hline, -⟩ := startLine_eq payload
  unfold Response.parse at h
  rw [hline] at h
  dsimp only [bind, Except.bind] at h
  rcases hread : Cursor.startText (firstLine payload) with e | text
  · rw [hread] at h
    exact absurd h (by simp)
  · rw [hread] at h
    dsimp only at h
    split at h
    · rename_i version code reason hwords
      rcases hstatus : status? code with _ | status
      · rw [hstatus] at h
        exact absurd h (by simp)
      · rcases hversion : Version.parse version with e | v
        · rw [hstatus, hversion] at h
          exact absurd h (by simp)
        · obtain ⟨-, -, htext⟩ := threeWords_eq_some hwords
          obtain ⟨w, rfl, -⟩ := VersionText.parse_eq_ok_iff.mp hversion
          obtain ⟨hlength, hdigits⟩ : code.length = 3 ∧ ∀ c ∈ code, isDigit c = true := by
            unfold status? value? at hstatus
            split_ifs at hstatus with hlength hbad
            · exact absurd hstatus (by simp)
            · simp only [Bool.or_eq_true, Bool.not_eq_true', not_or, Bool.not_eq_false,
                List.all_eq_true] at hbad
              exact ⟨eq_of_beq hlength, hbad.2⟩
          refine ⟨⟨w, code, hlength, hdigits, reason⟩, ?_⟩
          rw [(startText_eq_ok_iff.mp hread).1, htext]
          rfl
    · exact absurd h (by simp)

end Responses

/-- **The start lines that are accepted.** A payload is read as a request if and only if its first line is
the encoding of a request line, and as a response if and only if it is the encoding of a status line. -/
theorem start_lines_accepted (payload : List UInt8) :
    ((∃ r, Request.parse payload = .ok r) ↔
        ∃ l : RequestLine, firstLine payload = Utf8.encode l.text) ∧
      ((∃ r, Response.parse payload = .ok r) ↔
        ∃ l : StatusLine, firstLine payload = Utf8.encode l.text) :=
  ⟨⟨fun ⟨_, hr⟩ => RequestLine.of_parse hr, fun ⟨l, hl⟩ => ⟨_, l.parse_eq hl⟩⟩,
    ⟨fun ⟨_, hr⟩ => StatusLine.of_parse hr, fun ⟨l, hl⟩ => ⟨_, l.parse_eq hl⟩⟩⟩

/-- `GET / HTTP/+1.1` -/
def signedLine : RequestLine where
  method := ['G', 'E', 'T']
  method_ne_nil := by decide
  method_no_space := by decide
  target := ['/']
  authority := none
  form := .origin []
  target_no_space := by decide
  version :=
    { major := ⟨true, ['1'], by decide, List.forall_mem_singleton.mpr rfl, by decide⟩
      minor := ⟨false, ['1'], by decide, List.forall_mem_singleton.mpr rfl, by decide⟩ }

/-- A request with a sign in its version is accepted, and its line is none with a plain version. -/
theorem signed_version_accepted :
    (∃ r, Request.parse (Utf8.encode "GET / HTTP/+1.1\r\n\r\n".toList) = .ok r) ∧
      ¬∃ l : RequestLine, l.version.IsPlain ∧
        firstLine (Utf8.encode "GET / HTTP/+1.1\r\n\r\n".toList) = Utf8.encode l.text := by
  have hfirst : firstLine (Utf8.encode "GET / HTTP/+1.1\r\n\r\n".toList) =
      Utf8.encode signedLine.text := by decide
  refine ⟨⟨_, signedLine.parse_eq hfirst⟩, ?_⟩
  rintro ⟨l, hplain, hl⟩
  -- The bytes determine the line, and the line its version, which has a sign.
  have htext : l.text = signedLine.text := Utf8.encode_injective (hl.symm.trans hfirst)
  have hwords : (l.method, some (l.target, some l.version.text)) =
      (signedLine.method, some (signedLine.target, some signedLine.version.text)) := by
    rw [← threeWords_of_three l.method_no_space l.target_no_space,
      ← threeWords_of_three signedLine.method_no_space signedLine.target_no_space]
    exact congrArg threeWords htext
  have hversion : l.version.text = signedLine.version.text := by
    simp only [Prod.mk.injEq, Option.some.injEq] at hwords
    exact hwords.2.2
  exact hplain.no_plus (hversion ▸ by decide)

end FlowWatch.Http
