/-
Lines as a partition of the payload.

A cursor has one position, and everything that reads from it reads lines. So the cursors that can occur in a
payload are those that some number of calls for a line leads to, and each call takes the next piece between
the line feeds with the line feed behind it: no byte is skipped, and none is read twice. Behind the last
piece a call finds nothing and moves nothing. Reading header fields is calling for lines until one of them is
no part of a field.
-/
import FlowWatch.Proofs.Http.StartLines

set_option autoImplicit false

namespace FlowWatch.Http

open Cursor (lineFeed dropReturn)

/-! ## Pieces -/

/-- Pieces without an empty one at the end. -/
def withoutEmptyEnd (pieces : List (List UInt8)) : List (List UInt8) :=
  if pieces.getLast? = some [] then pieces.dropLast else pieces

theorem withoutEmptyEnd_cons (piece : List UInt8) {pieces : List (List UInt8)} (h : pieces ≠ []) :
    withoutEmptyEnd (piece :: pieces) = piece :: withoutEmptyEnd pieces := by
  obtain ⟨next, later, rfl⟩ := List.exists_cons_of_ne_nil h
  unfold withoutEmptyEnd
  rw [List.getLast?_cons_cons, List.dropLast_cons_cons]
  split_ifs <;> rfl

/-- The pieces are those of a split at the line feeds. -/
theorem piecesOf_eq_splitOn (bs : List UInt8) :
    piecesOf bs = withoutEmptyEnd (bs.splitOn lineFeed) := by
  induction bs with
  | nil => rfl
  | cons b bs ih =>
    have hsome : bs.splitOn lineFeed ≠ [] := List.splitOn_ne_nil _ _
    rw [piecesOf, ih, List.splitOn_cons_eq_if_modifyHead]
    obtain ⟨piece, pieces, hsplit⟩ := List.exists_cons_of_ne_nil hsome
    rw [hsplit]
    by_cases hb : b = lineFeed
    · rw [if_pos hb, if_pos (beq_iff_eq.mpr hb), withoutEmptyEnd_cons _ (List.cons_ne_nil _ _)]
    · rw [if_neg hb, if_neg (mt beq_iff_eq.mp hb), List.modifyHead_cons]
      rcases pieces with _ | ⟨next, later⟩
      · -- The byte is in the last piece, which is empty without it or not.
        rcases piece with _ | ⟨a, piece⟩ <;> rfl
      · rw [withoutEmptyEnd_cons _ (List.cons_ne_nil _ _),
          withoutEmptyEnd_cons _ (List.cons_ne_nil _ _)]

/-- The line that is read off a piece: one carriage return at the end of the piece is no part of it. -/
def IsLineOf (piece line : List UInt8) : Prop :=
  piece = line ++ [13] ∨ (piece = line ∧ ¬[13] <:+ piece)

theorem isLineOf_dropReturn (piece : List UInt8) : IsLineOf piece (dropReturn piece) := by
  rcases List.eq_nil_or_concat piece with rfl | ⟨line, b, rfl⟩
  · exact .inr ⟨rfl, by decide⟩
  · rw [List.concat_eq_append]
    by_cases hb : b = 13
    · subst hb
      exact .inl (by rw [dropReturn_marked])
    · refine .inr ⟨?_, fun hend => ?_⟩
      · unfold dropReturn
        rw [List.getLast?_concat, if_neg (by simpa using hb)]
      · obtain ⟨before, hbefore⟩ := hend
        exact hb (List.singleton_inj.mp (List.append_inj_right' hbefore rfl)).symm

/-- The bytes of pieces with a line feed behind each. -/
def spanOf (pieces : List (List UInt8)) : Nat := (pieces.map fun piece => piece.length + 1).sum

theorem spanOf_append (pieces later : List (List UInt8)) :
    spanOf (pieces ++ later) = spanOf pieces + spanOf later := by
  unfold spanOf
  rw [List.map_append, List.sum_append]

/-- Only a payload without bytes has no piece. -/
theorem piecesOf_eq_nil {bs : List UInt8} : piecesOf bs = [] ↔ bs = [] := by
  constructor
  · intro hnone
    by_contra hsome
    rw [piecesOf_eq hsome] at hnone
    exact absurd hnone (List.cons_ne_nil _ _)
  · rintro rfl
    rfl

namespace Cursor

/-! ## One call for a line -/

/-- What a call for a line gives. -/
def line? (r : Cursor) : Option (List UInt8) := r.takeLine.map (·.1)

/-- The cursor after a call for a line, whatever the call gives. -/
def pass (r : Cursor) : Cursor := (r.takeLine.map (·.2)).getD r

/-- The cursor after `k` calls for a line. -/
def passes (r : Cursor) (k : Nat) : Cursor := pass^[k] r

theorem passes_succ (r : Cursor) (k : Nat) : r.passes (k + 1) = r.pass.passes k := rfl

theorem passes_succ' (r : Cursor) (k : Nat) : r.passes (k + 1) = (r.passes k).pass :=
  Function.iterate_succ_apply' pass k r

theorem passes_add (r : Cursor) (j k : Nat) : r.passes (j + k) = (r.passes j).passes k := by
  unfold passes
  rw [Nat.add_comm, Function.iterate_add_apply]

/-- A call at the end gives nothing and moves nothing. -/
theorem takeLine_of_end {r : Cursor} (h : r.rest = []) : r.takeLine = none := by
  unfold takeLine
  rw [h]
  rfl

theorem pass_of_end {r : Cursor} (h : r.rest = []) : r.pass = r := by
  unfold pass
  rw [takeLine_of_end h]
  rfl

/-- A call elsewhere gives the first line, and goes behind its piece. -/
theorem takeLine_of_some {r : Cursor} (h : r.rest ≠ []) :
    r.takeLine = some (dropReturn (r.rest.takeWhile (· != lineFeed)), r.pass) ∧
      r.pass.rest = (r.rest.dropWhile (· != lineFeed)).drop 1 := by
  have htake := r.takeLine_eq
  unfold linesOf at htake
  rw [piecesOf_eq h, List.map_cons] at htake
  obtain ⟨r', hline, -, hrest⟩ := htake
  unfold pass
  rw [hline]
  exact ⟨rfl, hrest⟩

theorem line?_eq (r : Cursor) : r.line? = (linesOf r.rest).head? := by
  unfold line?
  by_cases hrest : r.rest = []
  · rw [takeLine_of_end hrest, hrest]
    rfl
  · unfold linesOf
    rw [(takeLine_of_some hrest).1, piecesOf_eq hrest]
    rfl

/-- A call takes one piece. -/
theorem piecesOf_pass (r : Cursor) : piecesOf r.pass.rest = (piecesOf r.rest).drop 1 := by
  by_cases hrest : r.rest = []
  · rw [pass_of_end hrest, hrest]
    rfl
  · rw [(takeLine_of_some hrest).2, piecesOf_eq hrest]
    rfl

/-- A call takes off the rest its piece and the line feed, which the last piece may lack. -/
theorem length_rest_pass (r : Cursor) :
    r.pass.rest.length = r.rest.length - spanOf ((piecesOf r.rest).take 1) := by
  by_cases hrest : r.rest = []
  · rw [pass_of_end hrest, hrest]
    rfl
  · have hcut := congrArg List.length
      (List.takeWhile_append_dropWhile (p := (· != lineFeed)) (l := r.rest))
    have hspan : spanOf ((piecesOf r.rest).take 1) =
        (r.rest.takeWhile (· != lineFeed)).length + 1 := by
      rw [piecesOf_eq hrest]
      rfl
    rw [List.length_append] at hcut
    rw [(takeLine_of_some hrest).2, hspan, List.length_drop]
    omega

/-- What a call takes off the rest it adds to the position. -/
theorem position_pass (r : Cursor) :
    r.pass.payload = r.payload ∧
      r.pass.position + r.pass.rest.length = r.position + r.rest.length := by
  unfold pass takeLine
  split_ifs
  · exact ⟨rfl, rfl⟩
  · have hline := (List.takeWhile_prefix (l := r.rest) (· != lineFeed)).length_le
    refine ⟨rfl, ?_⟩
    dsimp only [Option.map_some, Option.getD_some, skip]
    rw [List.length_drop, List.length_drop, List.length_take, List.length_drop]
    omega

/-- A call gives a line exactly if it moves the cursor on. -/
theorem isSome_line?_iff (r : Cursor) : r.line?.isSome ↔ r.position < r.pass.position := by
  have hposition := r.position_pass.2
  unfold line?
  by_cases hrest : r.rest = []
  · rw [takeLine_of_end hrest, pass_of_end hrest]
    exact iff_of_false Bool.false_ne_true (Nat.lt_irrefl _)
  · obtain ⟨hline, -⟩ := takeLine_of_some hrest
    have hless := takeLine_length_lt hline
    rw [hline]
    exact iff_of_true rfl (by omega)

theorem isNone_line?_iff (r : Cursor) : r.line?.isNone ↔ r.rest = [] := by
  rw [line?_eq, Option.isNone_iff_eq_none, List.head?_eq_none_iff, linesOf, List.map_eq_nil_iff,
    piecesOf_eq_nil]

/-! ## Calls in a row -/

theorem piecesOf_passes (r : Cursor) (k : Nat) :
    piecesOf (r.passes k).rest = (piecesOf r.rest).drop k := by
  induction k generalizing r with
  | zero => rfl
  | succ k ih => rw [passes_succ, ih, piecesOf_pass, List.drop_drop, Nat.add_comm]

theorem linesOf_passes (r : Cursor) (k : Nat) :
    linesOf (r.passes k).rest = (linesOf r.rest).drop k := by
  unfold linesOf
  rw [piecesOf_passes, List.map_drop]

/-- **The calls give the lines in order**, and nothing when there are no more. -/
theorem line?_passes (r : Cursor) (k : Nat) : (r.passes k).line? = (linesOf r.rest)[k]? := by
  rw [line?_eq, linesOf_passes, List.head?_drop]

theorem length_rest_passes (r : Cursor) (k : Nat) :
    (r.passes k).rest.length = r.rest.length - spanOf ((piecesOf r.rest).take k) := by
  induction k with
  | zero => rfl
  | succ k ih =>
    rw [passes_succ', length_rest_pass, ih, piecesOf_passes, List.take_add, spanOf_append,
      Nat.sub_sub]

/-- What has been read and what is left make up the payload. -/
theorem position_passes (payload : List UInt8) (k : Nat) :
    ((new payload).passes k).payload = payload ∧
      ((new payload).passes k).position + ((new payload).passes k).rest.length = payload.length := by
  induction k with
  | zero => exact ⟨rfl, Nat.zero_add _⟩
  | succ k ih =>
    obtain ⟨hpayload, hposition⟩ := ((new payload).passes k).position_pass
    rw [passes_succ', hpayload, hposition]
    exact ih

/-! ## Start lines and header fields -/

/-- A start line is one call, whatever the line is. -/
theorem startLine_eq_pass (r : Cursor) : r.startLine.2 = r.pass := by
  unfold startLine pass
  rcases r.takeLine with _ | ⟨line, r'⟩ <;> rfl

/-- Whether a line is a part of a field: of its own field, or of the one before it if there is one. -/
def isPart (begun : Bool) (line : List UInt8) : Bool :=
  if isContinuation line then begun else (field? line).isSome

/-- The number of lines that are read for the fields of a head: the parts of fields, and the first line that
is none, if there is one. -/
def headSpan (begun : Bool) : List (List UInt8) → Nat
  | [] => 0
  | line :: lines => if isPart begun line then headSpan true lines + 1 else 1

/-- A line is added if it is a part of a field, and then there is a field. -/
theorem addLine_isPart (fields : List Field) (line : List UInt8) :
    (addLine fields line).2 = isPart (!fields.isEmpty) line ∧
      ((addLine fields line).2 = true → (addLine fields line).1.isEmpty = false) := by
  rw [addLine_eq]
  unfold isPart
  split_ifs
  · rcases fields with _ | ⟨field, fields⟩
    · exact ⟨rfl, fun h => absurd h Bool.false_ne_true⟩
    · exact ⟨rfl, fun _ => rfl⟩
  · rcases field? line with _ | field
    · exact ⟨rfl, fun h => absurd h Bool.false_ne_true⟩
    · exact ⟨rfl, fun _ => rfl⟩

theorem headersFrom_eq_passes (fields : List Field) (r : Cursor) :
    (headersFrom fields r).2 = r.passes (headSpan (!fields.isEmpty) (linesOf r.rest)) := by
  generalize hlines : linesOf r.rest = lines
  induction lines generalizing fields r with
  | nil =>
    have htake := r.takeLine_eq
    rw [hlines] at htake
    rw [headersFrom_of_none htake]
    rfl
  | cons line lines ih =>
    have htake := r.takeLine_eq
    rw [hlines] at htake
    obtain ⟨r', hline, hrest, -⟩ := htake
    have hpass : r.pass = r' := by
      unfold pass
      rw [hline]
      rfl
    obtain ⟨hpart, hbegun⟩ := addLine_isPart fields line
    rw [headersFrom_of_some hline, headSpan, ← hpart]
    split_ifs with hmore
    · rw [passes_succ, hpass, ih _ r' hrest, hbegun hmore]
      rfl
    · exact hpass.symm

/-- **Line reading partitions a payload.** Take its pieces between the line feeds, without an empty one at the
end. The lines are these pieces, each without one carriage return at its end. Call for a line any number of
times: call `k` gives line `k`, and nothing if there are no more. The position is then behind the pieces
given so far and their line feeds, of which only the last may lie beyond the payload; it is never outside
the payload, moves on with every line, and is at the end of the payload exactly if there are no more lines. A
start line is one such call, and the fields of a head are as many as there are lines up to the first that is
no part of a field. -/
theorem lines_partition (payload : List UInt8) :
    let pieces := withoutEmptyEnd (payload.splitOn lineFeed)
    let cursor := (new payload).passes
    ∃ lines, List.Forall₂ IsLineOf pieces lines ∧
      ∀ k, (cursor k).line? = lines[k]? ∧ (cursor k).payload = payload ∧
        (cursor k).position = min payload.length (spanOf (pieces.take k)) ∧
        (cursor k).position ≤ payload.length ∧
        ((cursor k).line?.isSome ↔ (cursor k).position < (cursor (k + 1)).position) ∧
        ((cursor k).line?.isNone ↔ (cursor k).position = payload.length) ∧
        (cursor k).startLine.2 = cursor (k + 1) ∧
        (cursor k).headers.2 = cursor (k + headSpan false (lines.drop k)) := by
  intro pieces cursor
  have hpieces : piecesOf payload = pieces := piecesOf_eq_splitOn payload
  refine ⟨linesOf payload, ?_, fun k => ?_⟩
  · rw [← hpieces, linesOf, List.forall₂_map_right_iff]
    exact List.forall₂_same.mpr fun piece _ => isLineOf_dropReturn piece
  · have hnext : cursor (k + 1) = (cursor k).pass := (new payload).passes_succ' k
    obtain ⟨hpayload, hposition⟩ : (cursor k).payload = payload ∧
        (cursor k).position + (cursor k).rest.length = payload.length := position_passes payload k
    have hleft : (cursor k).rest.length = payload.length - spanOf (pieces.take k) :=
      hpieces ▸ (new payload).length_rest_passes k
    refine ⟨(new payload).line?_passes k, hpayload, by omega, by omega, ?_, ?_, ?_, ?_⟩
    · rw [hnext]
      exact (cursor k).isSome_line?_iff
    · rw [(cursor k).isNone_line?_iff, ← List.length_eq_zero_iff]
      omega
    · rw [hnext]
      exact (cursor k).startLine_eq_pass
    · have hlines : linesOf (cursor k).rest = (linesOf payload).drop k :=
        (new payload).linesOf_passes k
      rw [← hlines]
      exact (headersFrom_eq_passes [] (cursor k)).trans
        ((new payload).passes_add k _).symm

end Cursor

end FlowWatch.Http
