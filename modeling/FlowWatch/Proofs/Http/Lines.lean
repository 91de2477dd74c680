/-
The lines of a payload and the fields they make.

A cursor reads a payload line by line and folds the lines into fields as it goes. Here the two are taken
apart: `linesOf` cuts the bytes at the line feeds, and `fieldsOf` reads fields off a list of lines, each
field with the continuation lines behind it, up to the first line that is no part of one. What a cursor
reads depends on the bytes before it and on nothing else.
-/
import FlowWatch.Http.Cursor
import Mathlib.Data.List.TakeWhile
import Mathlib.Tactic.SplitIfs

set_option autoImplicit false

namespace FlowWatch.Http

/-- What a cut takes off, and what it leaves. -/
theorem drop_takeWhile {α : Type} (p : α → Bool) (l : List α) :
    l.drop (l.takeWhile p).length = l.dropWhile p := by
  have hleft : (l.takeWhile p ++ l.dropWhile p).drop (l.takeWhile p).length = l.dropWhile p :=
    List.drop_left' rfl
  rw [List.takeWhile_append_dropWhile] at hleft
  exact hleft

/-! ## Lines -/

/-- The bytes between the line feeds; behind the last line feed there is no empty piece. -/
def piecesOf : List UInt8 → List (List UInt8)
  | [] => []
  | b :: bs =>
    if b = Cursor.lineFeed then [] :: piecesOf bs
    else
      match piecesOf bs with
      | [] => [[b]]
      | piece :: pieces => (b :: piece) :: pieces

/-- The lines of a payload, without their ends. -/
def linesOf (bs : List UInt8) : List (List UInt8) := (piecesOf bs).map Cursor.dropReturn

theorem piecesOf_feed (bs : List UInt8) : piecesOf (Cursor.lineFeed :: bs) = [] :: piecesOf bs :=
  if_pos rfl

/-- Bytes without a line feed are the beginning of one line. -/
theorem piecesOf_append {line : List UInt8} (hline : ∀ b ∈ line, b ≠ Cursor.lineFeed)
    (bs : List UInt8) : piecesOf (line ++ Cursor.lineFeed :: bs) = line :: piecesOf bs := by
  induction line with
  | nil => exact piecesOf_feed bs
  | cons b line ih =>
    have hb := hline b List.mem_cons_self
    have htail := ih fun a ha => hline a (List.mem_cons_of_mem b ha)
    rw [List.cons_append, piecesOf, if_neg hb, htail]

/-- The last line may lack its line feed. -/
theorem piecesOf_last {b : UInt8} {line : List UInt8} (hline : ∀ a ∈ b :: line, a ≠ Cursor.lineFeed) :
    piecesOf (b :: line) = [b :: line] := by
  induction line generalizing b with
  | nil => exact if_neg (hline b List.mem_cons_self)
  | cons c line ih =>
    have hb := hline b List.mem_cons_self
    have htail := ih fun a ha => hline a (List.mem_cons_of_mem b ha)
    rw [piecesOf, if_neg hb, htail]

/-- Every payload that is not empty is a line and what comes behind its line feed. -/
theorem piecesOf_eq {bs : List UInt8} (hbs : bs ≠ []) :
    piecesOf bs = bs.takeWhile (· != Cursor.lineFeed) ::
      piecesOf ((bs.dropWhile (· != Cursor.lineFeed)).drop 1) := by
  have hfree : ∀ a ∈ bs.takeWhile (· != Cursor.lineFeed), a ≠ Cursor.lineFeed := by
    intro a ha
    simpa using List.mem_takeWhile_imp ha
  have hcut := List.takeWhile_append_dropWhile (p := (· != Cursor.lineFeed)) (l := bs)
  rcases hrest : bs.dropWhile (· != Cursor.lineFeed) with _ | ⟨b, rest⟩
  · -- No line feed at all.
    rw [hrest, List.append_nil] at hcut
    rw [hcut] at hfree ⊢
    obtain ⟨c, line, rfl⟩ := List.exists_cons_of_ne_nil hbs
    exact piecesOf_last hfree
  · have hb : b = Cursor.lineFeed := by
      have hstop := List.head?_dropWhile_not (· != Cursor.lineFeed) bs
      rw [hrest] at hstop
      simpa using hstop
    rw [hrest, hb] at hcut
    rw [List.drop_one, List.tail_cons, ← piecesOf_append hfree, hcut]

namespace Cursor

/-- Reading a line takes the first one, and leaves the others. -/
theorem takeLine_eq (r : Cursor) :
    match linesOf r.rest with
    | [] => r.takeLine = none
    | line :: lines => ∃ r', r.takeLine = some (line, r') ∧ linesOf r'.rest = lines ∧
        r'.rest = (r.rest.dropWhile (· != lineFeed)).drop 1 := by
  by_cases hrest : r.rest = []
  · unfold takeLine
    rw [hrest]
    rfl
  · have hdrop : ((r.skip (r.rest.takeWhile (· != lineFeed)).length).skip
        ((r.skip (r.rest.takeWhile (· != lineFeed)).length).rest.take 1).length).rest =
          (r.rest.dropWhile (· != lineFeed)).drop 1 := by
      show (r.rest.drop _).drop ((r.rest.drop _).take 1).length = _
      rw [drop_takeWhile]
      rcases r.rest.dropWhile (· != lineFeed) with _ | ⟨b, rest⟩ <;> rfl
    unfold linesOf
    rw [piecesOf_eq hrest, List.map_cons]
    refine ⟨_, if_neg (by simpa using hrest), ?_, hdrop⟩
    rw [hdrop]

end Cursor

/-! ## Fields -/

/-- A value with the continuation lines behind it, each added after a space. -/
def continued (value : String) (lines : List (List UInt8)) : String :=
  lines.foldl (fun v line => v ++ " " ++ Cursor.fieldText line) value

/-- The fields that the lines of a head make. The first line that is no field line ends the head; a
blank one is of this kind, and so is a continuation of nothing. -/
def fieldsOf : List (List UInt8) → List Field
  | [] => []
  | line :: lines =>
    if Cursor.isContinuation line then []
    else
      match Cursor.field? line with
      | none => []
      | some (name, value) =>
        (name, continued value (lines.takeWhile Cursor.isContinuation)) ::
          fieldsOf (lines.dropWhile Cursor.isContinuation)
termination_by lines => lines.length
decreasing_by exact Nat.lt_succ_of_le (List.dropWhile_suffix _).length_le

/-- Fields before which a field was read: its continuation lines, and the fields behind. -/
def fieldsAfter (field : Field) (lines : List (List UInt8)) : List Field :=
  (field.1, continued field.2 (lines.takeWhile Cursor.isContinuation)) ::
    fieldsOf (lines.dropWhile Cursor.isContinuation)

theorem fieldsOf_nil : fieldsOf [] = [] := by rw [fieldsOf]

theorem fieldsOf_cons (line : List UInt8) (lines : List (List UInt8)) :
    fieldsOf (line :: lines) =
      if Cursor.isContinuation line then []
      else ((Cursor.field? line).map (fieldsAfter · lines)).getD [] := by
  rw [fieldsOf]
  rcases Cursor.field? line with _ | ⟨name, value⟩ <;> rfl

theorem fieldsAfter_continuation {line : List UInt8} (h : Cursor.isContinuation line = true)
    (field : Field) (lines : List (List UInt8)) :
    fieldsAfter field (line :: lines) =
      fieldsAfter (field.1, field.2 ++ " " ++ Cursor.fieldText line) lines := by
  unfold fieldsAfter
  rw [List.takeWhile_cons_of_pos h, List.dropWhile_cons_of_pos h]
  rfl

theorem fieldsAfter_other {line : List UInt8} (h : Cursor.isContinuation line = false)
    (field : Field) (lines : List (List UInt8)) :
    fieldsAfter field (line :: lines) = field :: fieldsOf (line :: lines) := by
  have hstop : ¬Cursor.isContinuation line = true := by rw [h]; exact Bool.false_ne_true
  unfold fieldsAfter
  rw [List.takeWhile_cons_of_neg hstop, List.dropWhile_cons_of_neg hstop]
  rfl

theorem fieldsAfter_nil (field : Field) : fieldsAfter field [] = [field] := by
  unfold fieldsAfter
  rw [List.takeWhile_nil, List.dropWhile_nil, fieldsOf_nil]
  rfl

namespace Cursor

/-- A blank line is no field line. -/
theorem field?_nil : field? [] = none := rfl

theorem headersFrom_of_none {r : Cursor} (h : r.takeLine = none) (fields : List Field) :
    headersFrom fields r = (fields, r) := by
  rw [headersFrom]
  split
  · rfl
  · rename_i line r' hline
    exact absurd (h.symm.trans hline) (by simp)

theorem headersFrom_of_some {r r' : Cursor} {line : List UInt8} (h : r.takeLine = some (line, r'))
    (fields : List Field) :
    headersFrom fields r =
      if (addLine fields line).2 then headersFrom (addLine fields line).1 r'
      else ((addLine fields line).1, r') := by
  rw [headersFrom]
  split
  · rename_i hnone
    exact absurd (h.symm.trans hnone) (by simp)
  · rename_i line' r'' hline
    obtain ⟨rfl, rfl⟩ := Prod.mk.inj (Option.some.inj (h.symm.trans hline))
    rcases addLine fields line with ⟨more, _ | _⟩ <;> rfl

/-- A line ends the head, continues the newest field, or is a field of its own. -/
theorem addLine_eq (fields : List Field) (line : List UInt8) :
    addLine fields line =
      if isContinuation line then
        match fields with
        | [] => ([], false)
        | field :: fields => ((field.1, field.2 ++ " " ++ fieldText line) :: fields, true)
      else
        match field? line with
        | none => (fields, false)
        | some field => (field :: fields, true) := by
  unfold addLine
  rcases line with _ | ⟨b, line⟩
  · rw [field?_nil]
    rfl
  · rw [if_neg (by simp)]
    split_ifs
    · rcases fields with _ | ⟨⟨name, value⟩, fields⟩ <;> rfl
    · rcases field? (b :: line) with _ | field <;> rfl

/-- The fields that are read on from here when some have been read, the newest first. -/
def fieldsFrom (lines : List (List UInt8)) : List Field → List Field
  | [] => fieldsOf lines
  | field :: fields => fields.reverse ++ fieldsAfter field lines

/-- One line more: it is added, and reading goes on if it is a part of the head. -/
theorem fieldsFrom_cons (fields : List Field) (line : List UInt8) (lines : List (List UInt8)) :
    fieldsFrom (line :: lines) fields =
      if (addLine fields line).2 then fieldsFrom lines (addLine fields line).1
      else (addLine fields line).1.reverse := by
  rw [addLine_eq]
  by_cases hcont : isContinuation line = true
  · rw [if_pos hcont]
    rcases fields with _ | ⟨field, fields⟩
    · show fieldsOf (line :: lines) = []
      rw [fieldsOf_cons, if_pos hcont]
    · show fields.reverse ++ fieldsAfter field (line :: lines) = fields.reverse ++ fieldsAfter _ lines
      rw [fieldsAfter_continuation hcont]
  · have hother : isContinuation line = false := Bool.eq_false_iff.mpr hcont
    -- The newest field is complete, and what is read next stands on its own.
    have hcomplete : fieldsFrom (line :: lines) fields = fields.reverse ++ fieldsOf (line :: lines) := by
      rcases fields with _ | ⟨field, fields⟩
      · rfl
      · show fields.reverse ++ fieldsAfter field (line :: lines) = _
        rw [fieldsAfter_other hother, List.reverse_cons, List.append_assoc]
        rfl
    rw [hcomplete, fieldsOf_cons, if_neg hcont, if_neg hcont]
    rcases field? line with _ | field
    · exact List.append_nil _
    · rfl

theorem headersFrom_eq (fields : List Field) (r : Cursor) :
    (headersFrom fields r).1.reverse = fieldsFrom (linesOf r.rest) fields := by
  generalize hlines : linesOf r.rest = lines
  induction lines generalizing fields r with
  | nil =>
    have htake := r.takeLine_eq
    rw [hlines] at htake
    rw [headersFrom_of_none htake]
    rcases fields with _ | ⟨field, fields⟩
    · exact fieldsOf_nil.symm
    · show (field :: fields).reverse = fields.reverse ++ fieldsAfter field []
      rw [fieldsAfter_nil, List.reverse_cons]
  | cons line lines ih =>
    have htake := r.takeLine_eq
    rw [hlines] at htake
    obtain ⟨r', hline, hrest, -⟩ := htake
    rw [headersFrom_of_some hline, fieldsFrom_cons]
    split_ifs
    · exact ih (addLine fields line).1 r' hrest
    · rfl

/-- **A cursor reads the fields of the lines before it.** -/
theorem headers_eq (r : Cursor) : r.headers.1 = fieldsOf (linesOf r.rest) :=
  headersFrom_eq [] r

end Cursor

end FlowWatch.Http
