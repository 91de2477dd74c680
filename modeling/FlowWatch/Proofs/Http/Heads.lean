/-
The head of a message, written and read back.

A head is written line by line: the start line, the fields, each with its name, a colon and a value that
may go on in continuation lines, and a blank line, behind which anything may follow. Every line ends in a
line feed, with a carriage return before it or without. Parts of a value are set off with spaces and tabs.
However these choices are made, reading gives back the name of every field, and its value with one space
between the parts. Names and parts are trimmed and have no line feeds, so that nothing of them can be taken
for white space around them, for a line end or for a continuation.
-/
import FlowWatch.Proofs.Http.Grammar

set_option autoImplicit false

namespace FlowWatch.Http

open Text

/-! ## Trimmed text -/

section Trimmed

variable {cs : List Char}

theorem length_trimEnd_le (cs : List Char) : (trimEnd cs).length ≤ cs.length := by
  unfold trimEnd
  rw [List.length_reverse]
  exact (List.dropWhile_suffix _).length_le.trans_eq List.length_reverse

/-- A trimmed text has a blank at neither end. -/
theorem ends_of_trimmed (h : trim cs = cs) :
    (∀ c ∈ cs.head?, isBlank c = false) ∧ ∀ c ∈ cs.getLast?, isBlank c = false := by
  have hfront : cs.dropWhile isBlank = cs := by
    have hlength : cs.length ≤ (cs.dropWhile isBlank).length := by
      have hle := length_trimEnd_le (cs.dropWhile isBlank)
      rwa [show trimEnd (cs.dropWhile isBlank) = cs from h] at hle
    exact (List.dropWhile_suffix _).eq_of_length_le hlength
  have hback : cs.reverse.dropWhile isBlank = cs.reverse := by
    have hend : trimEnd (cs.dropWhile isBlank) = cs := h
    rw [hfront] at hend
    exact List.reverse_eq_iff.mp hend
  have hstop : ∀ xs : List Char, xs.dropWhile isBlank = xs → ∀ c ∈ xs.head?, isBlank c = false := by
    intro xs hxs c hc
    have hnot := List.head?_dropWhile_not isBlank xs
    rw [hxs, Option.mem_def.mp hc] at hnot
    simpa using hnot
  refine ⟨hstop cs hfront, fun c hc => hstop cs.reverse hback c ?_⟩
  rwa [List.head?_reverse]

/-- Blanks before a text are trimmed off. -/
theorem trim_append {lead : List Char} (h : ∀ c ∈ lead, isBlank c = true) (cs : List Char) :
    trim (lead ++ cs) = trim cs := by
  unfold trim
  rw [List.dropWhile_append_of_pos h]

end Trimmed

/-! ## Lines of a head -/

/-- How a line ends. -/
inductive LineEnd where
  | feed
  | returnFeed

/-- What stands behind a line that ends so. -/
def LineEnd.followedBy : LineEnd → List UInt8 → Remainder
  | .feed, rest => .feed rest
  | .returnFeed, rest => .returnFeed rest

namespace LineEnd

variable (e : LineEnd) (rest : List UInt8)

theorem append_followedBy_ne_nil (line : List UInt8) : line ++ (e.followedBy rest).bytes ≠ [] := by
  cases e <;> exact List.append_ne_nil_of_right_ne_nil line (List.cons_ne_nil _ _)

theorem rest_followedBy : (e.followedBy rest).rest = rest := by
  cases e <;> rfl

/-- A text without a carriage return at its end is shown as it is, whichever end the line has. -/
theorem shown_followedBy {text : List Char} (h : dropReturnChar text = text) :
    (e.followedBy rest).shown text = text := by
  cases e with
  | feed => exact h
  | returnFeed => rfl

end LineEnd

/-- A part of a value: spaces and tabs, a trimmed text, and the end of the line. -/
structure Part where
  lead : List Char
  lead_blank : ∀ c ∈ lead, c = ' ' ∨ c = '\t'
  text : List Char
  text_trimmed : trim text = text
  text_no_feed : '\n' ∉ text
  ending : LineEnd

/-- A field: its name, the part of its value behind the colon, and the parts on continuation lines. -/
structure WrittenField where
  name : List Char
  name_ne_nil : name ≠ []
  name_trimmed : trim name = name
  name_no_colon : ':' ∉ name
  name_no_feed : '\n' ∉ name
  first : Part
  more : List Part
  more_lead : ∀ part ∈ more, part.lead ≠ []

/-- What follows a start line: fields, a blank line, and anything at all. -/
structure WrittenHead where
  fields : List WrittenField
  blank : LineEnd
  body : List UInt8

namespace Part

variable (p : Part)

/-- The part as it is written. -/
def written : List Char := p.lead ++ p.text

theorem lead_isBlank : ∀ c ∈ p.lead, isBlank c = true := by
  intro c hc
  rcases p.lead_blank c hc with rfl | rfl <;> rfl

theorem no_feed : '\n' ∉ p.written := by
  rw [written, List.mem_append, not_or]
  refine ⟨fun h => ?_, p.text_no_feed⟩
  rcases p.lead_blank '\n' h with h | h <;> exact absurd h (by decide)

/-- A part does not end in a carriage return that could be taken for the end of the line. -/
theorem dropReturnChar_written : dropReturnChar p.written = p.written := by
  refine if_neg fun hlast => ?_
  by_cases htext : p.text = []
  · rw [written, htext, List.append_nil] at hlast
    rcases p.lead_blank '\r' (List.mem_of_getLast? hlast) with h | h <;> exact absurd h (by decide)
  · rw [written, List.getLast?_append_of_ne_nil _ htext] at hlast
    have hblank := (ends_of_trimmed p.text_trimmed).2 '\r' hlast
    exact absurd hblank (by decide)

theorem fieldText_written : Cursor.fieldText (Utf8.encode p.written) = String.ofList p.text := by
  unfold Cursor.fieldText
  rw [Utf8.decodeLossy_encode, written, trim_append p.lead_isBlank, p.text_trimmed]

/-- A line that starts with a space or a tab is a continuation. -/
theorem isContinuation_written (h : p.lead ≠ []) :
    Cursor.isContinuation (Utf8.encode p.written) = true := by
  obtain ⟨c, tail, hlead⟩ := List.exists_cons_of_ne_nil h
  have hc := p.lead_blank c (hlead ▸ List.mem_cons_self)
  rw [written, hlead, List.cons_append, Utf8.encode_cons]
  rcases hc with rfl | rfl <;> rfl

end Part

namespace WrittenField

variable (f : WrittenField)

/-- The field line as it is written. -/
def line : List Char := f.name ++ ':' :: f.first.written

/-- The texts of all parts of the value. -/
def parts : List (List Char) := (f.first :: f.more).map (·.text)

/-- The field that is meant: the parts are joined by single spaces. -/
def field : Field := (String.ofList f.name, String.ofList ([' '].intercalate f.parts))

/-- All lines of the field, each with its end. -/
def lines : List (List Char × LineEnd) :=
  (f.line, f.first.ending) :: f.more.map fun p => (p.written, p.ending)

/-- Every line is read as it is written. -/
theorem lines_clean : ∀ l ∈ f.lines, '\n' ∉ l.1 ∧ dropReturnChar l.1 = l.1 := by
  intro l hl
  rcases List.mem_cons.mp hl with rfl | hmore
  · refine ⟨?_, ?_⟩
    · show '\n' ∉ f.line
      rw [line, List.mem_append, List.mem_cons, not_or, not_or]
      exact ⟨f.name_no_feed, by decide, f.first.no_feed⟩
    · show dropReturnChar f.line = f.line
      rw [line, dropReturnChar_append _ (by decide), f.first.dropReturnChar_written]
  · obtain ⟨p, -, rfl⟩ := List.mem_map.mp hmore
    exact ⟨p.no_feed, p.dropReturnChar_written⟩

/-- A name that is trimmed does not look like a continuation. -/
theorem isContinuation_line : Cursor.isContinuation (Utf8.encode f.line) = false := by
  obtain ⟨c, tail, hname⟩ := List.exists_cons_of_ne_nil f.name_ne_nil
  have hblank : isBlank c = false :=
    (ends_of_trimmed f.name_trimmed).1 c (hname ▸ rfl)
  rw [line, hname, List.cons_append, Utf8.encode_cons]
  obtain ⟨b, bytes, hbytes⟩ := List.exists_cons_of_ne_nil (Utf8.encodeChar_ne_nil c)
  rw [hbytes]
  show (b == 32 || b == 9) = false
  rw [Bool.or_eq_false_iff, beq_eq_false_iff_ne, beq_eq_false_iff_ne]
  -- A byte below 0x80 is a character by itself, and no blank opens the name.
  have hcode : ∀ a : Char, isBlank a = true → a.toNat < 0x80 → b ≠ UInt8.ofNat a.toNat := by
    rintro a ha hascii rfl
    have hnat : (UInt8.ofNat a.toNat).toNat = a.toNat := Utf8.toNat_byte (by omega)
    obtain ⟨hsame, -⟩ := Utf8.encodeChar_of_ascii (hbytes ▸ List.mem_cons_self)
      (hnat.trans_lt hascii)
    rw [Char.toNat_inj.mp (hsame.trans hnat), ha] at hblank
    exact Bool.noConfusion hblank
  exact ⟨hcode ' ' rfl (by decide), hcode '\t' rfl (by decide)⟩

/-- A field line is cut at its colon. -/
theorem field?_line : Cursor.field? (Utf8.encode f.line) =
    some (String.ofList f.name, String.ofList f.first.text) := by
  have hbytes : Utf8.encode f.line = Utf8.encode f.name ++ 58 :: Utf8.encode f.first.written := by
    rw [line, Utf8.encode_append, Utf8.encode_cons]
    rfl
  have hname : (Utf8.encode f.line).takeWhile (· != 58) = Utf8.encode f.name := by
    have hcolon : ∀ b ∈ Utf8.encode f.name, (b != 58) = true := by
      intro b hb
      rw [bne_iff_ne]
      rintro rfl
      exact f.name_no_colon (Utf8.mem_of_mem_encode rfl (by decide) hb)
    rw [hbytes, List.takeWhile_append_of_pos hcolon, List.takeWhile_cons_of_neg (by simp),
      List.append_nil]
  -- The value is what the colon leaves.
  have hvalue : (Utf8.encode f.line).drop ((Utf8.encode f.name).length + 1) =
      Utf8.encode f.first.written := by
    rw [hbytes, ← List.drop_drop, List.drop_left' rfl]
    rfl
  have hlength : ((Utf8.encode f.name).length == (Utf8.encode f.line).length) = false := by
    rw [beq_eq_false_iff_ne, hbytes, List.length_append, List.length_cons]
    omega
  have htext : Cursor.fieldText (Utf8.encode f.name) = String.ofList f.name := by
    unfold Cursor.fieldText
    rw [Utf8.decodeLossy_encode, f.name_trimmed]
  have hblank : (String.ofList f.name).isEmpty = false := by
    rw [Bool.eq_false_iff, ne_eq, String.isEmpty_iff]
    intro hempty
    have hlist := congrArg String.toList hempty
    rw [String.toList_ofList] at hlist
    exact f.name_ne_nil hlist
  unfold Cursor.field?
  dsimp only
  rw [hname, hlength, if_neg Bool.false_ne_true, htext, hblank, if_neg Bool.false_ne_true, hvalue,
    f.first.fieldText_written]

end WrittenField

/-! ## Reading a head back -/

/-- Lines as they are written, with what is behind them. -/
def writeLines (lines : List (List Char × LineEnd)) (rest : List UInt8) : List UInt8 :=
  lines.foldr (fun l rest => Utf8.encode l.1 ++ (l.2.followedBy rest).bytes) rest

/-- A line is read without its end, whichever that is. -/
theorem linesOf_line {text : List Char} (hfeed : '\n' ∉ text) (hreturn : dropReturnChar text = text)
    (ending : LineEnd) (rest : List UInt8) :
    linesOf (Utf8.encode text ++ (ending.followedBy rest).bytes) = Utf8.encode text :: linesOf rest := by
  rw [(ending.followedBy rest).linesOf_text hfeed (ending.append_followedBy_ne_nil rest _),
    ending.shown_followedBy rest hreturn, ending.rest_followedBy]

theorem linesOf_writeLines {lines : List (List Char × LineEnd)}
    (h : ∀ l ∈ lines, '\n' ∉ l.1 ∧ dropReturnChar l.1 = l.1) (rest : List UInt8) :
    linesOf (writeLines lines rest) = lines.map (Utf8.encode ·.1) ++ linesOf rest := by
  induction lines with
  | nil => rfl
  | cons l lines ih =>
    obtain ⟨hfeed, hreturn⟩ := h l List.mem_cons_self
    have htail := ih fun m hm => h m (List.mem_cons_of_mem l hm)
    show linesOf (Utf8.encode l.1 ++ (l.2.followedBy (writeLines lines rest)).bytes) = _
    rw [linesOf_line hfeed hreturn, htail]
    rfl

/-- Two texts are joined before the others. -/
theorem intercalate_joined (first second : List Char) (others : List (List Char)) :
    [' '].intercalate ((first ++ ' ' :: second) :: others) =
      [' '].intercalate (first :: second :: others) := by
  cases others with
  | nil => simp [List.intercalate]
  | cons third others => simp [List.intercalate]

/-- The continuation lines of a field add their parts to its value. -/
theorem fieldsAfter_parts (name : String) (value : List Char) {parts : List Part}
    (hlead : ∀ p ∈ parts, p.lead ≠ []) {line : List UInt8}
    (hline : Cursor.isContinuation line = false) (lines : List (List UInt8)) :
    fieldsAfter (name, String.ofList value)
        ((parts.map fun p => Utf8.encode p.written) ++ line :: lines) =
      (name, String.ofList ([' '].intercalate (value :: parts.map (·.text)))) ::
        fieldsOf (line :: lines) := by
  -- The value grows with every part, so the induction is over any value.
  induction parts generalizing value with
  | nil =>
    rw [List.map_nil, List.nil_append, fieldsAfter_other hline]
    simp [List.intercalate]
  | cons p parts ih =>
    have hp := p.isContinuation_written (hlead p List.mem_cons_self)
    have hjoined : String.ofList value ++ " " ++ String.ofList p.text =
        String.ofList (value ++ ' ' :: p.text) := by
      rw [← String.toList_inj]
      simp
    rw [List.map_cons, List.cons_append, fieldsAfter_continuation hp, p.fieldText_written, hjoined,
      ih _ fun q hq => hlead q (List.mem_cons_of_mem p hq), intercalate_joined]
    rfl

namespace WrittenHead

/-- The lines of the head, up to the blank one. -/
def lines (h : WrittenHead) : List (List Char × LineEnd) :=
  h.fields.flatMap WrittenField.lines ++ [([], h.blank)]

/-- The head as it is written. -/
def bytes (h : WrittenHead) : List UInt8 := writeLines h.lines h.body

/-- The lines of fields are read as these fields, if a blank line stops them. -/
theorem fieldsOf_lines (fields : List WrittenField) (later : List (List UInt8)) :
    fieldsOf ((fields.flatMap WrittenField.lines).map (Utf8.encode ·.1) ++ [] :: later) =
      fields.map WrittenField.field := by
  induction fields with
  | nil =>
    show fieldsOf ([] :: later) = []
    rw [fieldsOf_cons, Cursor.field?_nil]
    rfl
  | cons f fields ih =>
    -- What comes behind the field is a field line, or the blank line.
    obtain ⟨line, lines, hnext, hline⟩ : ∃ line lines,
        (fields.flatMap WrittenField.lines).map (Utf8.encode ·.1) ++ [] :: later = line :: lines ∧
          Cursor.isContinuation line = false := by
      rcases fields with _ | ⟨g, fields⟩
      · exact ⟨[], later, rfl, rfl⟩
      · exact ⟨Utf8.encode g.line, _, rfl, g.isContinuation_line⟩
    have hshape : ((f :: fields).flatMap WrittenField.lines).map (Utf8.encode ·.1) ++ [] :: later =
        Utf8.encode f.line :: ((f.more.map fun p => Utf8.encode p.written) ++ line :: lines) := by
      rw [← hnext, List.flatMap_cons, List.map_append, List.append_assoc, WrittenField.lines,
        List.map_cons, List.map_map]
      rfl
    rw [hnext] at ih
    rw [hshape, fieldsOf_cons, f.isContinuation_line, if_neg Bool.false_ne_true, f.field?_line,
      Option.map_some, Option.getD_some, fieldsAfter_parts _ _ f.more_lead hline, ih]
    rfl

/-- **A head is read as it is written**, and nothing behind its blank line is. -/
theorem fieldsOf_bytes (h : WrittenHead) :
    fieldsOf (linesOf h.bytes) = h.fields.map WrittenField.field := by
  have hclean : ∀ l ∈ h.lines, '\n' ∉ l.1 ∧ dropReturnChar l.1 = l.1 := by
    intro l hl
    rcases List.mem_append.mp hl with hfields | hblank
    · obtain ⟨f, -, hf⟩ := List.mem_flatMap.mp hfields
      exact f.lines_clean l hf
    · rw [List.mem_singleton.mp hblank]
      exact ⟨List.not_mem_nil, rfl⟩
  rw [bytes, linesOf_writeLines hclean, lines, List.map_append, List.append_assoc]
  exact fieldsOf_lines h.fields (linesOf h.body)

end WrittenHead

end FlowWatch.Http
