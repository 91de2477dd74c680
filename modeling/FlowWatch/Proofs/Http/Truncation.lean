/-
Heads that are cut short.

A capture may hold less of a message than was sent. Where a payload is cut, some of its lines are gone and
the last of the others may have lost its end; so the two lists of lines are the same up to there, and the
last line that is left is the beginning of a line of the payload. The beginning of a line does not pass for
something else: it continues a field only if the whole line does, and it is a field only with the name that
the whole line has. Reading both payloads line by line, everything before the newest field stays equal, and
the newest one keeps its name.
-/
import FlowWatch.Proofs.Http.Grammar

set_option autoImplicit false

namespace FlowWatch.Http

open Text

/-! ## Lines of a cut payload -/

/-- The lines that a cut leaves: all of the first ones, and maybe the beginning of one more. -/
inductive CutLines : List (List UInt8) → List (List UInt8) → Prop where
  | none (lines : List (List UInt8)) : CutLines [] lines
  | last {start line : List UInt8} (h : start <+: line) (lines : List (List UInt8)) :
    CutLines [start] (line :: lines)
  | whole (line : List UInt8) {left lines : List (List UInt8)} (h : CutLines left lines) :
    CutLines (line :: left) (line :: lines)

namespace CutLines

variable {left lines : List (List UInt8)}

/-- What keeps beginnings of lines can be done to every line. -/
theorem map {f : List UInt8 → List UInt8} (hf : ∀ {start line}, start <+: line → f start <+: f line)
    (h : CutLines left lines) : CutLines (left.map f) (lines.map f) := by
  induction h with
  | none lines => exact .none _
  | last hstart lines => exact .last (hf hstart) _
  | whole line _ ih => exact .whole _ ih

theorem tail (h : CutLines left lines) : CutLines left.tail lines.tail := by
  cases h with
  | none lines => exact .none _
  | last hstart lines => exact .none _
  | whole line h => exact h

end CutLines

/-- A line that was cut keeps no carriage return that the whole line would lose. -/
theorem dropReturn_prefix {start line : List UInt8} (h : start <+: line) :
    Cursor.dropReturn start <+: Cursor.dropReturn line := by
  by_cases heq : start = line
  · rw [heq]
  · -- A proper beginning is one of the line without its last byte.
    have hinit : start <+: line.dropLast := by
      obtain ⟨tail, rfl⟩ := h
      have htail : tail ≠ [] := by
        rintro rfl
        exact heq (List.append_nil start).symm
      rw [List.dropLast_append_of_ne_nil htail]
      exact List.prefix_append _ _
    have hshort : Cursor.dropReturn start <+: start := by
      unfold Cursor.dropReturn
      split_ifs
      · exact List.dropLast_prefix start
      · exact List.prefix_refl start
    have hlong : line.dropLast <+: Cursor.dropReturn line := by
      unfold Cursor.dropReturn
      split_ifs
      · exact List.prefix_refl _
      · exact List.dropLast_prefix line
    exact hshort.trans (hinit.trans hlong)

theorem cutLines_piecesOf (bs : List UInt8) (n : Nat) :
    CutLines (piecesOf (bs.take n)) (piecesOf bs) := by
  induction bs generalizing n with
  | nil =>
    rw [List.take_nil]
    exact .none _
  | cons b bs ih =>
    rcases n with _ | n
    · exact .none _
    · rw [List.take_succ_cons]
      by_cases hb : b = Cursor.lineFeed
      · rw [hb, piecesOf_feed, piecesOf_feed]
        exact .whole [] (ih n)
      · -- The byte stands at the beginning of the first piece on both sides.
        rw [piecesOf, piecesOf, if_neg hb, if_neg hb]
        have hrest := ih n
        generalize piecesOf (bs.take n) = left at hrest ⊢
        generalize piecesOf bs = lines at hrest ⊢
        cases hrest with
        | none lines =>
          rcases lines with _ | ⟨line, lines⟩
          · exact .last (List.prefix_refl _) _
          · exact .last (List.prefix_append [b] line) _
        | last hstart lines => exact .last ((List.prefix_cons_inj b).mpr hstart) _
        | whole line h => exact .whole _ h

/-- **A cut leaves whole lines and the beginning of one.** -/
theorem cutLines_take (bs : List UInt8) (n : Nat) : CutLines (linesOf (bs.take n)) (linesOf bs) :=
  (cutLines_piecesOf bs n).map dropReturn_prefix

/-! ## Beginnings of lines -/

section Beginnings

variable {start line : List UInt8}

/-- The first byte tells a continuation, and a line keeps it unless nothing is left. -/
theorem isContinuation_of_prefix (h : start <+: line) (hne : start ≠ []) :
    Cursor.isContinuation start = Cursor.isContinuation line := by
  obtain ⟨tail, rfl⟩ := h
  obtain ⟨b, start, rfl⟩ := List.exists_cons_of_ne_nil hne
  rfl

/-- A field line is cut behind its colon, so its name is whole. -/
theorem field?_of_prefix {name value : String} (h : start <+: line)
    (hfield : Cursor.field? start = some (name, value)) :
    ∃ whole, Cursor.field? line = some (name, whole) := by
  obtain ⟨tail, rfl⟩ := h
  unfold Cursor.field? at hfield ⊢
  dsimp only at hfield ⊢
  split_ifs at hfield with hcolon hblank
  obtain ⟨rfl, -⟩ := Prod.mk.inj (Option.some.inj hfield)
  have hname : (start ++ tail).takeWhile (· != 58) = start.takeWhile (· != 58) := by
    rw [List.takeWhile_append, if_neg (by simpa using hcolon)]
  have hlonger : ((start.takeWhile (· != 58)).length == (start ++ tail).length) = false := by
    have hle := (List.takeWhile_prefix (· != 58) (l := start)).length_le
    have hlt : (start.takeWhile (· != 58)).length ≠ start.length := by simpa using hcolon
    rw [beq_eq_false_iff_ne, List.length_append]
    omega
  rw [hname, hlonger, if_neg Bool.false_ne_true, if_neg hblank]
  exact ⟨_, rfl⟩

end Beginnings

/-! ## Fields of a cut head -/

/-- The fields that a cut leaves: the names are the first ones, and only the last field may have another
value. -/
structure CutFields (left fields : List Field) : Prop where
  names : left.map (·.1) <+: fields.map (·.1)
  values : left.dropLast <+: fields

theorem CutFields.nil (fields : List Field) : CutFields [] fields :=
  ⟨List.nil_prefix, List.nil_prefix⟩

namespace Cursor

theorem fieldsFrom_nil (fields : List Field) : fieldsFrom [] fields = fields.reverse := by
  rcases fields with _ | ⟨field, fields⟩
  · exact fieldsOf_nil
  · show fields.reverse ++ fieldsAfter field [] = (field :: fields).reverse
    rw [fieldsAfter_nil, List.reverse_cons]

/-- The beginning of a line is no part of the head, or it does what the line does except for a value. -/
theorem addLine_of_prefix {start line : List UInt8} (h : start <+: line) (fields : List Field) :
    addLine fields start = (fields, false) ∨
      ∃ name value whole older, addLine fields start = ((name, value) :: older, true) ∧
        addLine fields line = ((name, whole) :: older, true) := by
  by_cases hempty : start = []
  · rw [hempty]
    exact .inl rfl
  · have hcont := isContinuation_of_prefix h hempty
    rw [addLine_eq, addLine_eq, ← hcont]
    by_cases hstart : isContinuation start = true
    · rw [if_pos hstart, if_pos hstart]
      rcases fields with _ | ⟨⟨name, value⟩, older⟩
      · exact .inl rfl
      · exact .inr ⟨name, _, _, older, rfl, rfl⟩
    · rw [if_neg hstart, if_neg hstart]
      rcases hfield : field? start with _ | ⟨name, value⟩
      · exact .inl rfl
      · obtain ⟨whole, hwhole⟩ := field?_of_prefix h hfield
        rw [hwhole]
        exact .inr ⟨name, value, whole, fields, rfl, rfl⟩

/-- What is read behind the newest field leaves the older ones alone, and the newest its name. -/
theorem cutFields_newest (name value whole : String) (older : List Field)
    (lines : List (List UInt8)) :
    CutFields ((name, value) :: older).reverse (fieldsFrom lines ((name, whole) :: older)) := by
  have hfields : fieldsFrom lines ((name, whole) :: older) =
      older.reverse ++ (name, continued whole (lines.takeWhile isContinuation)) ::
        fieldsOf (lines.dropWhile isContinuation) := rfl
  rw [hfields, List.reverse_cons]
  constructor
  · rw [List.map_append, List.map_append, List.prefix_append_right_inj]
    exact ⟨_, rfl⟩
  · rw [List.dropLast_concat]
    exact List.prefix_append _ _

theorem cutFields_reverse (fields : List Field) (lines : List (List UInt8)) :
    CutFields fields.reverse (fieldsFrom lines fields) := by
  rcases fields with _ | ⟨⟨name, value⟩, older⟩
  · exact .nil _
  · exact cutFields_newest name value value older lines

/-- **Reading a cut head** on from any fields. The induction is on the cut, and whole lines do the same to
the fields on both sides. -/
theorem fieldsFrom_cut {left lines : List (List UInt8)} (h : CutLines left lines)
    (fields : List Field) : CutFields (fieldsFrom left fields) (fieldsFrom lines fields) := by
  induction h generalizing fields with
  | none lines =>
    rw [fieldsFrom_nil]
    exact cutFields_reverse fields lines
  | @last start line hstart lines =>
    rw [fieldsFrom_cons, fieldsFrom_nil]
    rcases addLine_of_prefix hstart fields with hend | ⟨name, value, whole, older, hleft, hline⟩
    · rw [hend, ite_self]
      exact cutFields_reverse fields (line :: lines)
    · rw [fieldsFrom_cons, hleft, hline, if_pos rfl, if_pos rfl]
      exact cutFields_newest name value whole older lines
  | whole line _ ih =>
    rw [fieldsFrom_cons, fieldsFrom_cons]
    split_ifs
    · exact ih _
    · -- The line ends the head for both.
      exact ⟨List.prefix_refl _, List.dropLast_prefix _⟩

end Cursor

/-! ## Messages -/

section Messages

variable {payload : List UInt8} {n : Nat}

/-- The first line is whole if the cut is not before its end. -/
theorem firstLine_take (hn : (payload.takeWhile (· != Cursor.lineFeed)).length ≤ n) :
    firstLine (payload.take n) = firstLine payload := by
  unfold firstLine
  rw [← List.take_takeWhile, List.take_of_length_le hn]

/-- The fields behind the first line of a cut payload. -/
theorem cutFields_take (payload : List UInt8) (n : Nat) :
    CutFields (fieldsOf (linesOf (payload.take n)).tail) (fieldsOf (linesOf payload).tail) :=
  Cursor.fieldsFrom_cut (cutLines_take payload n).tail []

/-- **A message that is cut behind its start line is read all the same.** Its start line is read as it was,
its header names are the first ones of the whole head, and only the last of its headers may have lost a part
of its value. -/
theorem truncated_head_read (payload : List UInt8) (n : Nat)
    (hn : (payload.takeWhile (· != Cursor.lineFeed)).length ≤ n) :
    (∀ r, Request.parse payload = .ok r → ∃ s, Request.parse (payload.take n) = .ok s ∧
        s.method = r.method ∧ s.target = r.target ∧ s.version = r.version ∧
        CutFields s.headers r.headers) ∧
      ∀ r, Response.parse payload = .ok r → ∃ s, Response.parse (payload.take n) = .ok s ∧
        s.version = r.version ∧ s.status = r.status ∧ s.reason = r.reason ∧
        CutFields s.headers r.headers := by
  have hfirst := firstLine_take hn
  constructor
  · intro r hr
    obtain ⟨l, hl⟩ := RequestLine.of_parse hr
    obtain rfl := Except.ok.inj (hr.symm.trans (l.parse_eq hl))
    exact ⟨_, l.parse_eq (hfirst.trans hl), rfl, rfl, rfl, cutFields_take payload n⟩
  · intro r hr
    obtain ⟨l, hl⟩ := StatusLine.of_parse hr
    obtain rfl := Except.ok.inj (hr.symm.trans (l.parse_eq hl))
    exact ⟨_, l.parse_eq (hfirst.trans hl), rfl, rfl, rfl, cutFields_take payload n⟩

end Messages

/-- A cut within a character of a continuation line: of the fields only the first is left, and its value
ends in a replacement character. -/
theorem truncated_head_read_within_character :
    let payload := Utf8.encode "GET / HTTP/1.1\r\nHost: a\r\n é\r\nX: y\r\n\r\n".toList
    let whole : Request := ⟨"GET", "/", ⟨1, 1⟩, some "a é", [("Host", "a é"), ("X", "y")]⟩
    let cut : Request := ⟨"GET", "/", ⟨1, 1⟩, some "a \uFFFD", [("Host", "a \uFFFD")]⟩
    (payload.takeWhile (· != Cursor.lineFeed)).length ≤ 27 ∧ Request.parse payload = .ok whole ∧
      Request.parse (payload.take 27) = .ok cut ∧ CutFields cut.headers whole.headers := by
  intro payload whole cut
  have hn : (payload.takeWhile (· != Cursor.lineFeed)).length ≤ 27 := by decide +kernel
  have hwhole : Request.parse payload = .ok whole := by decide +kernel
  have hcut : Request.parse (payload.take 27) = .ok cut := by decide +kernel
  obtain ⟨s, hs, -, -, -, hfields⟩ := (truncated_head_read payload 27 hn).1 whole hwhole
  obtain rfl := Except.ok.inj (hcut.symm.trans hs)
  exact ⟨hn, hwhole, hcut, hfields⟩

end FlowWatch.Http
