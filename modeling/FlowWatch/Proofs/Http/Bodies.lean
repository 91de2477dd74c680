/-
What stands behind a head.

The head of a message ends with a blank line, if it does not end before. Whatever follows the blank line is
no part of it: the lines of the payload up to there are the same, the blank line stops the reading of
fields, and the openings that the decoder looks for are shorter than any head that ends so. A body can
therefore add nothing to a message and change nothing in it, and cannot turn a refusal into a message.
-/
import FlowWatch.Proofs.Http.Messages

set_option autoImplicit false

namespace FlowWatch.Http

open Text

/-! ## Blank lines -/

/-- The last line of a payload is blank, with a carriage return or without. -/
def EndsBlank (head : List UInt8) : Prop :=
  [Cursor.lineFeed, Cursor.lineFeed] <:+ head ∨ [Cursor.lineFeed, 13, Cursor.lineFeed] <:+ head

/-- A line feed ends a line, whatever is behind it. -/
theorem linesOf_append_feed (bs rest : List UInt8) :
    linesOf (bs ++ Cursor.lineFeed :: rest) = linesOf (bs ++ [Cursor.lineFeed]) ++ linesOf rest := by
  have hpieces : piecesOf (bs ++ Cursor.lineFeed :: rest) =
      piecesOf (bs ++ [Cursor.lineFeed]) ++ piecesOf rest := by
    induction bs with
    | nil =>
      show piecesOf (Cursor.lineFeed :: rest) = piecesOf [Cursor.lineFeed] ++ piecesOf rest
      rw [piecesOf_feed, piecesOf_feed]
      rfl
    | cons b bs ih =>
      rw [List.cons_append, List.cons_append, piecesOf, piecesOf, ih]
      split_ifs
      · rfl
      · -- There is a first piece, which takes the byte.
        rcases hfirst : piecesOf (bs ++ [Cursor.lineFeed]) with _ | ⟨piece, pieces⟩
        · rw [piecesOf_eq (List.append_ne_nil_of_right_ne_nil _ (List.cons_ne_nil _ _))] at hfirst
          exact absurd hfirst (List.cons_ne_nil _ _)
        · rfl
  unfold linesOf
  rw [hpieces, List.map_append]

/-- The lines before the blank one are the lines of the head, and those of the body follow. -/
theorem EndsBlank.linesOf_append {head : List UInt8} (h : EndsBlank head) :
    ∃ first lines, ∀ body, linesOf (head ++ body) = first :: (lines ++ [] :: linesOf body) := by
  obtain ⟨bs, blank, rfl, hblank⟩ : ∃ bs blank, head = bs ++ Cursor.lineFeed :: blank ∧
      ∀ body, linesOf (blank ++ body) = [] :: linesOf body := by
    rcases h with ⟨bs, rfl⟩ | ⟨bs, rfl⟩
    · exact ⟨bs, [Cursor.lineFeed], rfl, fun body => congrArg (List.map _) (piecesOf_feed body)⟩
    · refine ⟨bs, [13, Cursor.lineFeed], rfl, fun body => ?_⟩
      have hpieces : piecesOf ([13, Cursor.lineFeed] ++ body) = [13] :: piecesOf body :=
        piecesOf_append (List.forall_mem_singleton.mpr (by decide)) body
      exact congrArg (List.map _) hpieces
  obtain ⟨lines, hlines⟩ := linesOf_eq (List.append_ne_nil_of_right_ne_nil bs
    (List.cons_ne_nil Cursor.lineFeed []))
  refine ⟨firstLine (bs ++ [Cursor.lineFeed]), lines, fun body => ?_⟩
  rw [List.append_assoc, List.cons_append, linesOf_append_feed, hblank, hlines, List.cons_append]

/-- **A blank line ends the fields.** -/
theorem Cursor.fieldsFrom_blank (lines later : List (List UInt8)) (fields : List Field) :
    fieldsFrom (lines ++ [] :: later) fields = fieldsFrom (lines ++ [[]]) fields := by
  induction lines generalizing fields with
  | nil =>
    rw [List.nil_append, List.nil_append, fieldsFrom_cons, fieldsFrom_cons]
    rfl
  | cons line lines ih =>
    rw [List.cons_append, List.cons_append, fieldsFrom_cons, fieldsFrom_cons, ih]

/-! ## Heads and bodies -/

section Bodies

variable {head : List UInt8}

/-- A request depends on the first line and on the fields of the others. -/
theorem Request.parse_congr {p q : List UInt8} (hfirst : firstLine p = firstLine q)
    (hfields : fieldsOf (linesOf p).tail = fieldsOf (linesOf q).tail) :
    Request.parse p = Request.parse q := by
  obtain ⟨c, hp, hpfields⟩ := startLine_eq p
  obtain ⟨d, hq, hqfields⟩ := startLine_eq q
  unfold Request.parse
  rw [hp, hq, hfirst]
  dsimp only
  rw [hpfields, hqfields, hfields]

/-- A response depends on the first line and on the fields of the others. -/
theorem Response.parse_congr {p q : List UInt8} (hfirst : firstLine p = firstLine q)
    (hfields : fieldsOf (linesOf p).tail = fieldsOf (linesOf q).tail) :
    Response.parse p = Response.parse q := by
  obtain ⟨c, hp, hpfields⟩ := startLine_eq p
  obtain ⟨d, hq, hqfields⟩ := startLine_eq q
  unfold Response.parse
  rw [hp, hq, hfirst]
  dsimp only
  rw [hpfields, hqfields, hfields]

/-- The first line and the fields are those of the head. -/
theorem EndsBlank.firstLine_append (h : EndsBlank head) (body : List UInt8) :
    firstLine (head ++ body) = firstLine head ∧
      fieldsOf (linesOf (head ++ body)).tail = fieldsOf (linesOf head).tail := by
  obtain ⟨first, lines, hlines⟩ := h.linesOf_append
  have hfirst : ∀ body, firstLine (head ++ body) = first := by
    intro body
    have hne : head ++ body ≠ [] := by
      intro hempty
      have hnone := hlines body
      rw [hempty] at hnone
      exact List.cons_ne_nil _ _ hnone.symm
    obtain ⟨others, hothers⟩ := linesOf_eq hne
    exact (List.cons.inj (hothers.symm.trans (hlines body))).1
  have hnone := hlines []
  have hhead := hfirst []
  rw [List.append_nil] at hnone hhead
  refine ⟨(hfirst body).trans hhead.symm, ?_⟩
  rw [hlines, hnone, List.tail_cons, List.tail_cons]
  exact Cursor.fieldsFrom_blank lines (linesOf body) []

/-- There is no line feed in the openings that are looked for. -/
theorem lineFeed_not_mem_opening :
    ∀ opening ∈ responseOpening :: requestOpenings, Cursor.lineFeed ∉ opening := by
  decide

/-- A short head has its line feed within the opening, so nothing behind it makes the payload HTTP. -/
theorem EndsBlank.isGated_short (h : EndsBlank head) (hshort : head.length < minimumLength)
    (body : List UInt8) : isGated (head ++ body) = false := by
  obtain ⟨bs, rfl⟩ : ∃ bs, head = bs ++ [Cursor.lineFeed] := by
    rcases h with ⟨bs, rfl⟩ | ⟨bs, rfl⟩
    · exact ⟨bs ++ [Cursor.lineFeed], by rw [List.append_assoc]; rfl⟩
    · exact ⟨bs ++ [Cursor.lineFeed, 13], by rw [List.append_assoc]; rfl⟩
  have hmem : Cursor.lineFeed ∈ ((bs ++ [Cursor.lineFeed]) ++ body).take Cursor.openingLength := by
    have hlength : (bs ++ [Cursor.lineFeed]).length ≤ Cursor.openingLength :=
      Nat.le_of_lt_succ hshort
    rw [List.take_append, List.take_of_length_le hlength]
    exact List.mem_append_left _ (List.mem_append_right _ List.mem_cons_self)
  refine Bool.and_eq_false_iff.mpr (.inr (Bool.eq_false_iff.mpr fun hopening => ?_))
  exact lineFeed_not_mem_opening _ (List.contains_iff_mem.mp hopening) hmem

theorem EndsBlank.readPayload_append (h : EndsBlank head) (hlong : minimumLength ≤ head.length)
    (body : List UInt8) (seen : Instant) :
    readPayload (head ++ body) seen = readPayload head seen := by
  obtain ⟨hfirst, hfields⟩ := h.firstLine_append body
  have hopening : (head ++ body).take Cursor.openingLength = head.take Cursor.openingLength :=
    List.take_append_of_le_length (Nat.le_trans (by decide) hlong)
  have hall : minimumLength ≤ (head ++ body).length := by
    rw [List.length_append]
    exact Nat.le_add_right_of_le hlong
  rw [readPayload_of_long hall, readPayload_of_long hlong, hopening,
    Request.parse_congr hfirst hfields, Response.parse_congr hfirst hfields]

/-- **A body is not read.** Behind a blank line there may be any bytes: the request, the response and what
the decoder sees are those of the head alone, and so are the refusals. -/
theorem body_not_read (h : EndsBlank head) (body : List UInt8) :
    Request.parse (head ++ body) = Request.parse head ∧
      Response.parse (head ++ body) = Response.parse head ∧
      ∀ name seen, (decoder name).decode (head ++ body) seen = (decoder name).decode head seen := by
  obtain ⟨hfirst, hfields⟩ := h.firstLine_append body
  refine ⟨Request.parse_congr hfirst hfields, Response.parse_congr hfirst hfields, fun name seen => ?_⟩
  by_cases hlong : minimumLength ≤ head.length
  · unfold decoder
    dsimp only
    rw [h.readPayload_append hlong]
  · have hshort := Nat.lt_of_not_le hlong
    have hnone := h.isGated_short hshort []
    rw [List.append_nil] at hnone
    rw [decode_of_not_gated (h.isGated_short hshort body), decode_of_not_gated hnone]

/-- Lines of a body that look like header lines change neither the host nor the headers. -/
theorem body_not_read_headers :
    let head := Utf8.encode "GET / HTTP/1.1\r\nHost: a\r\n\r\n".toList
    let body := Utf8.encode "Host: b\r\nX: y\r\n\r\n".toList
    EndsBlank head ∧
      Request.parse (head ++ body) = .ok ⟨"GET", "/", ⟨1, 1⟩, some "a", [("Host", "a")]⟩ ∧
      (decoder protocolName).decode (head ++ body) 0 =
        .ok (.request ⟨protocolName, "GET", "/", some "a", 0⟩) := by
  intro head body
  have hblank : EndsBlank head := .inr (by decide +kernel)
  obtain ⟨hrequest, -, hdecode⟩ := body_not_read hblank body
  refine ⟨hblank, ?_, ?_⟩
  · rw [hrequest]
    decide +kernel
  · rw [hdecode]
    decide +kernel

end Bodies

end FlowWatch.Http
