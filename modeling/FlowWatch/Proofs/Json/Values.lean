/-
JSON text read back, in either layout.

The two layouts differ in the blanks between tokens and in nothing else, and a reader skips blanks. So
both are instances of one shape: items and members are written one after the other with a comma and some
blanks between them. `Spells text v` says that the reader takes `text` for `v` wherever it stands, and is
shown for the shape once, from the same about the items; the texts of a value then have it by induction
on the value. The reader's fuel is spent at most twice for each character.
-/
import FlowWatch.Proofs.Json.Tokens
import Mathlib.Data.List.DropRight

set_option autoImplicit false

namespace FlowWatch.Json

open Text

/-! ## Values that have an exact text -/

/-- A value whose numbers are all integers of 64 bits, so that its text says all of it. -/
inductive Exact : Json → Prop where
  | null : Exact .null
  | bool (b : Bool) : Exact (.bool b)
  | integer (n : Int) (hmin : int64Min ≤ n) (hmax : n ≤ uint64Max) : Exact (.integer n)
  | text (s : String) : Exact (.text s)
  | array (items : List Json) (h : ∀ v ∈ items, Exact v) : Exact (.array items)
  | object (members : List (String × Json)) (h : ∀ m ∈ members, Exact m.2) :
    Exact (.object members)

/-- The reader takes the text for the value, whatever stands behind it that is not a further piece of
a numeral. -/
def Spells (text : List Char) (v : Json) : Prop :=
  ∀ fuel rest, 2 * text.length ≤ fuel → EndsNumeral rest →
    valueFrom fuel (text ++ rest) = .ok (v, rest)

/-! ## Blanks -/

/-- Blanks between tokens. -/
def IsBlank (gap : List Char) : Prop := ∀ c ∈ gap, isGap c = true

theorem isBlank_nil : IsBlank [] := fun _ h => nomatch h

theorem isBlank_newLine (level : Nat) : IsBlank (newLine level) := by
  intro c hc
  rcases List.mem_cons.mp hc with rfl | hblank
  · rfl
  · rw [List.eq_of_mem_replicate hblank]
    rfl

variable {gap rest text : List Char} {v : Json}

theorem skipGap_blank (hgap : IsBlank gap) : skipGap (gap ++ rest) = skipGap rest :=
  List.dropWhile_append_of_pos hgap

theorem skipGap_token {c : Char} (h : isGap c = false) : skipGap (c :: rest) = c :: rest :=
  List.dropWhile_cons_of_neg (by simp [h])

theorem skipGap_skipGap (cs : List Char) : skipGap (skipGap cs) = skipGap cs :=
  List.dropWhile_idempotent _ _

theorem valueFrom_skipGap (fuel : Nat) (cs : List Char) :
    valueFrom fuel (skipGap cs) = valueFrom fuel cs := by
  cases fuel with
  | zero => rfl
  | succ fuel => rw [valueFrom, valueFrom, skipGap_skipGap]

/-- Blanks and then a token that ends an item end a numeral. -/
theorem endsNumeral_blank {c : Char} (hgap : IsBlank gap)
    (hc : isDigit c = false ∧ c ≠ '.' ∧ c ≠ 'e' ∧ c ≠ 'E') : EndsNumeral (gap ++ c :: rest) := by
  intro d hd
  cases gap with
  | nil => exact Option.some.inj hd ▸ hc
  | cons g gap =>
    have hg := hgap g List.mem_cons_self
    rw [← Option.some.inj hd]
    simp only [isGap, Bool.or_eq_true, beq_iff_eq] at hg
    rcases hg with ((rfl | rfl) | rfl) | rfl <;> decide

/-! ## Single tokens -/

theorem Spells.length_pos (h : Spells text v) : 0 < text.length := by
  rcases Nat.eq_zero_or_pos text.length with hzero | hpos
  · have hread := h 0 [] (by omega) (fun _ h => nomatch h)
    rw [valueFrom] at hread
    cases hread
  · exact hpos

/-- A text of a value is not the end of an array. -/
theorem Spells.head (h : Spells text v) (hrest : EndsNumeral rest) :
    ∃ c cs, skipGap (text ++ rest) = c :: cs ∧ c ≠ ']' := by
  have hread := h (2 * text.length + 1) rest (by omega) hrest
  rw [valueFrom] at hread
  cases hskip : skipGap (text ++ rest) with
  | nil =>
    rw [hskip] at hread
    cases hread
  | cons c cs =>
    refine ⟨c, cs, rfl, ?_⟩
    rintro rfl
    rw [hskip] at hread
    cases hread

theorem exists_fuel {fuel n : Nat} (h : 2 * (n + 1) ≤ fuel) : ∃ k, fuel = k + 1 ∧ 2 * n < k := by
  refine ⟨fuel - 1, ?_, ?_⟩ <;> omega

theorem spells_null : Spells "null".toList .null := by
  intro fuel rest hfuel _
  obtain ⟨fuel, rfl, -⟩ := exists_fuel (n := 3) hfuel
  rfl

theorem spells_bool (b : Bool) : Spells (if b then "true" else "false").toList (.bool b) := by
  intro fuel rest hfuel _
  cases b with
  | false =>
    obtain ⟨fuel, rfl, -⟩ := exists_fuel (n := 4) hfuel
    rfl
  | true =>
    obtain ⟨fuel, rfl, -⟩ := exists_fuel (n := 3) hfuel
    rfl

theorem spells_text (s : String) : Spells (stringText s) (.text s) := by
  intro fuel rest hfuel _
  obtain ⟨fuel, rfl, -⟩ := exists_fuel (n := (s.toList.flatMap escapedChar ++ ['"']).length) hfuel
  obtain ⟨body, htext, hbody⟩ := stringBody_stringText s rest
  rw [htext, valueFrom, skipGap_token rfl]
  simp only [BEq.rfl, if_true, hbody]
  rfl

theorem spells_integer {n : Int} (hmin : int64Min ≤ n) (hmax : n ≤ uint64Max) :
    Spells (signedDecimal n) (.integer n) := by
  intro fuel rest hfuel hrest
  have hread := numeral_signedDecimal hmin hmax hrest
  obtain ⟨c, cs, hcs, hnumber⟩ := signedDecimal_cons n
  rw [hcs] at hfuel hread ⊢
  obtain ⟨fuel, rfl, -⟩ := exists_fuel (n := cs.length) hfuel
  have hother : isGap c = false ∧ c ≠ '"' ∧ c ≠ '[' ∧ c ≠ '\x7b' ∧ c ≠ 'n' ∧ c ≠ 't' ∧ c ≠ 'f' := by
    refine ⟨?_, ?_, ?_, ?_, ?_, ?_, ?_⟩
    · cases hgap : isGap c with
      | false => rfl
      | true =>
        simp only [isGap, Bool.or_eq_true, beq_iff_eq] at hgap
        rcases hgap with ((rfl | rfl) | rfl) | rfl <;> exact absurd hnumber (by decide)
    all_goals
      rintro rfl
      exact absurd hnumber (by decide)
  obtain ⟨hgap, h1, h2, h3, h4, h5, h6⟩ := hother
  rw [List.cons_append] at hread ⊢
  rw [valueFrom, skipGap_token hgap]
  simp only [beq_eq_false_iff_ne.mpr h1, beq_eq_false_iff_ne.mpr h2, beq_eq_false_iff_ne.mpr h3,
    beq_eq_false_iff_ne.mpr h4, beq_eq_false_iff_ne.mpr h5, beq_eq_false_iff_ne.mpr h6,
    Bool.false_eq_true, if_false, hnumber, if_true, hread]
  rfl

/-! ## Items -/

section Items

variable {write : Json → List Char} {close : List Char}

/-- Items behind the first one, each with its comma. -/
def furtherItems (gap : List Char) (write : Json → List Char) (items : List Json) : List Char :=
  items.flatMap fun v => ',' :: gap ++ write v

theorem furtherItems_cons (gap : List Char) (write : Json → List Char) (v : Json)
    (items : List Json) :
    furtherItems gap write (v :: items) =
      ',' :: (gap ++ (write v ++ furtherItems gap write items)) := by
  simp only [furtherItems, List.flatMap_cons, List.cons_append, List.append_assoc]

/-- Behind an item there is a comma, or the end of the array. -/
theorem endsNumeral_furtherItems (gap : List Char) (write : Json → List Char)
    (hclose : IsBlank close) (items : List Json) (rest : List Char) :
    EndsNumeral (furtherItems gap write items ++ (close ++ ']' :: rest)) := by
  cases items with
  | nil => exact endsNumeral_blank hclose (by decide)
  | cons v items =>
    rw [furtherItems_cons]
    exact endsNumeral_blank isBlank_nil (by decide)

theorem itemsFrom_further (hgap : IsBlank gap) (hclose : IsBlank close) (items : List Json)
    (h : ∀ v ∈ items, Spells (write v) v) (fuel : Nat) (acc : List Json) (rest : List Char)
    (hfuel : 2 * (furtherItems gap write items).length < fuel) :
    itemsFrom fuel false acc (furtherItems gap write items ++ (close ++ ']' :: rest)) =
      .ok (.array (acc.reverse ++ items), rest) := by
  induction items generalizing fuel acc with
  | nil =>
    obtain ⟨fuel, rfl⟩ := Nat.exists_eq_succ_of_ne_zero (Nat.ne_of_gt hfuel)
    change itemsFrom (fuel + 1) false acc (close ++ ']' :: rest) = _
    rw [itemsFrom, skipGap_blank hclose, skipGap_token rfl]
    simp
  | cons v items ih =>
    obtain ⟨hv, hitems⟩ := List.forall_mem_cons.mp h
    have hnext := endsNumeral_furtherItems gap write hclose items rest
    obtain ⟨d, ds, hskip, hd⟩ := hv.head hnext
    rw [furtherItems_cons] at hfuel ⊢
    simp only [List.length_cons, List.length_append] at hfuel
    obtain ⟨fuel, rfl⟩ := Nat.exists_eq_succ_of_ne_zero (Nat.ne_of_gt (Nat.zero_lt_of_lt hfuel))
    have hread := hv fuel _ (by omega) hnext
    have hrest := ih hitems fuel (v :: acc) (by omega)
    rw [List.reverse_cons, List.append_assoc, List.singleton_append] at hrest
    simp only [List.cons_append, List.append_assoc]
    rw [itemsFrom, skipGap_token rfl]
    simp only [Char.reduceBEq, Bool.false_eq_true, if_false, Bool.not_false, Bool.and_self, if_true,
      skipGap_blank hgap, hskip, beq_eq_false_iff_ne.mpr hd]
    rw [← valueFrom_skipGap, skipGap_blank hgap, valueFrom_skipGap, hread]
    exact hrest

/-- An array of items that are read back, each on a place of its own. -/
theorem spells_array (hgap : IsBlank gap) (hclose : IsBlank close) (items : List Json)
    (h : ∀ w ∈ v :: items, Spells (write w) w) :
    Spells ('[' :: gap ++ (write v ++ furtherItems gap write items) ++ close ++ [']'])
      (.array (v :: items)) := by
  intro fuel rest hfuel _
  obtain ⟨hv, hitems⟩ := List.forall_mem_cons.mp h
  have hnext := endsNumeral_furtherItems gap write hclose items rest
  obtain ⟨d, ds, hskip, hd⟩ := hv.head hnext
  have hpos := hv.length_pos
  simp only [List.length_cons, List.length_append, List.length_nil] at hfuel
  obtain ⟨fuel, rfl⟩ : ∃ k, fuel = k + 1 + 1 := ⟨fuel - 2, by omega⟩
  have hread := hv fuel _ (by omega) hnext
  rw [← valueFrom_skipGap, hskip] at hread
  simp only [List.cons_append, List.append_assoc, List.nil_append]
  rw [valueFrom, skipGap_token rfl]
  simp only [Char.reduceBEq, Bool.false_eq_true, if_false, if_true]
  rw [itemsFrom, skipGap_blank hgap, hskip]
  simp only [beq_eq_false_iff_ne.mpr hd, Bool.false_eq_true, if_false, Bool.not_true, Bool.and_false,
    if_true]
  rw [hread]
  exact itemsFrom_further hgap hclose items hitems fuel [v] rest (by omega)

theorem spells_array_nil : Spells ['[', ']'] (.array []) := by
  intro fuel rest hfuel _
  obtain ⟨fuel, rfl⟩ : ∃ k, fuel = k + 1 + 1 := ⟨fuel - 2, by simp at hfuel; omega⟩
  rfl

end Items

/-! ## Members -/

section Members

variable {colon close : List Char} {write : Json → List Char}

/-- A member with the blanks behind its colon. -/
def memberText (colon : List Char) (write : Json → List Char) (m : String × Json) : List Char :=
  stringText m.1 ++ ':' :: colon ++ write m.2

/-- Members behind the first one, each with its comma. -/
def furtherMembers (gap colon : List Char) (write : Json → List Char)
    (members : List (String × Json)) : List Char :=
  members.flatMap fun m => ',' :: gap ++ memberText colon write m

theorem furtherMembers_cons (gap colon : List Char) (write : Json → List Char) (m : String × Json)
    (members : List (String × Json)) :
    furtherMembers gap colon write (m :: members) =
      ',' :: (gap ++ (memberText colon write m ++ furtherMembers gap colon write members)) := by
  simp only [furtherMembers, List.flatMap_cons, List.cons_append, List.append_assoc]

theorem endsNumeral_furtherMembers (gap colon : List Char) (write : Json → List Char)
    (hclose : IsBlank close) (members : List (String × Json)) (rest : List Char) :
    EndsNumeral (furtherMembers gap colon write members ++ (close ++ '\x7d' :: rest)) := by
  cases members with
  | nil => exact endsNumeral_blank hclose (by decide)
  | cons m members =>
    rw [furtherMembers_cons]
    exact endsNumeral_blank isBlank_nil (by decide)

/-- A member is read as its name and its value. -/
theorem member_reads {m : String × Json} (hcolon : IsBlank colon) (hm : Spells (write m.2) m.2)
    (fuel : Nat) (hfuel : 2 * (memberText colon write m).length ≤ fuel) (hrest : EndsNumeral rest) :
    ∃ body after behind, memberText colon write m ++ rest = '"' :: body ∧
      stringBody body = .ok (m.1, after) ∧ expectChar ':' (skipGap after) = .ok behind ∧
      valueFrom fuel behind = .ok (m.2, rest) := by
  simp only [memberText, List.cons_append, List.append_assoc, List.length_append,
    List.length_cons] at hfuel ⊢
  obtain ⟨body, htext, hbody⟩ := stringBody_stringText m.1 (':' :: (colon ++ (write m.2 ++ rest)))
  refine ⟨body, _, colon ++ (write m.2 ++ rest), htext, hbody, ?_, ?_⟩
  · rw [skipGap_token rfl]
    rfl
  · rw [← valueFrom_skipGap, skipGap_blank hcolon, valueFrom_skipGap]
    exact hm fuel rest (by omega) hrest

theorem memberText_pos (colon : List Char) (write : Json → List Char) (m : String × Json) :
    0 < (memberText colon write m).length := by
  simp [memberText, stringText]

theorem membersFrom_further (hgap : IsBlank gap) (hcolon : IsBlank colon) (hclose : IsBlank close)
    (members : List (String × Json)) (h : ∀ m ∈ members, Spells (write m.2) m.2) (fuel : Nat)
    (acc : List (String × Json)) (rest : List Char)
    (hfuel : 2 * (furtherMembers gap colon write members).length < fuel) :
    membersFrom fuel false acc
        (furtherMembers gap colon write members ++ (close ++ '\x7d' :: rest)) =
      .ok (.object (acc.reverse ++ members), rest) := by
  induction members generalizing fuel acc with
  | nil =>
    obtain ⟨fuel, rfl⟩ := Nat.exists_eq_succ_of_ne_zero (Nat.ne_of_gt hfuel)
    change membersFrom (fuel + 1) false acc (close ++ '\x7d' :: rest) = _
    rw [membersFrom, skipGap_blank hclose, skipGap_token rfl]
    simp
  | cons m members ih =>
    obtain ⟨hm, hmembers⟩ := List.forall_mem_cons.mp h
    have hnext := endsNumeral_furtherMembers gap colon write hclose members rest
    rw [furtherMembers_cons] at hfuel ⊢
    simp only [List.length_cons, List.length_append] at hfuel
    obtain ⟨fuel, rfl⟩ := Nat.exists_eq_succ_of_ne_zero (Nat.ne_of_gt (Nat.zero_lt_of_lt hfuel))
    obtain ⟨body, after, behind, htext, hbody, hbehind, hvalue⟩ :=
      member_reads hcolon hm fuel (by omega) hnext
    have hrest := ih hmembers fuel (m :: acc) (by omega)
    rw [List.reverse_cons, List.append_assoc, List.singleton_append] at hrest
    simp only [List.cons_append, List.append_assoc]
    rw [membersFrom, skipGap_token rfl]
    simp only [Char.reduceBEq, Bool.false_eq_true, if_false, Bool.not_false, Bool.and_self, if_true,
      skipGap_blank hgap, htext, skipGap_token (c := '"') rfl, bne_self_eq_false]
    rw [hbody]
    simp only [bind, Except.bind, hbehind, hvalue]
    exact hrest

/-- An object of members that are read back, each on a place of its own. -/
theorem spells_object {m : String × Json} (hgap : IsBlank gap) (hcolon : IsBlank colon)
    (hclose : IsBlank close) (members : List (String × Json))
    (h : ∀ n ∈ m :: members, Spells (write n.2) n.2) :
    Spells ('\x7b' :: gap ++ (memberText colon write m ++ furtherMembers gap colon write members) ++
      close ++ ['\x7d']) (.object (m :: members)) := by
  intro fuel rest hfuel _
  obtain ⟨hm, hmembers⟩ := List.forall_mem_cons.mp h
  have hnext := endsNumeral_furtherMembers gap colon write hclose members rest
  have hpos := memberText_pos colon write m
  simp only [List.length_cons, List.length_append, List.length_nil] at hfuel
  obtain ⟨fuel, rfl⟩ : ∃ k, fuel = k + 1 + 1 := ⟨fuel - 2, by omega⟩
  obtain ⟨body, after, behind, htext, hbody, hbehind, hvalue⟩ :=
    member_reads hcolon hm fuel (by omega) hnext
  simp only [List.cons_append, List.append_assoc, List.nil_append]
  rw [valueFrom, skipGap_token rfl]
  simp only [Char.reduceBEq, Bool.false_eq_true, if_false, if_true]
  rw [membersFrom, skipGap_blank hgap, htext, skipGap_token rfl]
  simp only [Char.reduceBEq, Bool.false_eq_true, if_false, if_true, Bool.false_and,
    bne_self_eq_false]
  rw [hbody]
  simp only [bind, Except.bind, hbehind, hvalue]
  exact membersFrom_further hgap hcolon hclose members hmembers fuel [m] rest (by omega)

theorem spells_object_nil : Spells ['\x7b', '\x7d'] (.object []) := by
  intro fuel rest hfuel _
  obtain ⟨fuel, rfl⟩ : ∃ k, fuel = k + 1 + 1 := ⟨fuel - 2, by simp at hfuel; omega⟩
  rfl

end Members

/-! ## The two layouts -/

theorem compactItems_cons (v : Json) (items : List Json) :
    compactItems (v :: items) = v.compact ++ furtherItems [] compact items := by
  induction items generalizing v with
  | nil => simp [compactItems, furtherItems]
  | cons w items ih =>
    rw [compactItems, ih, furtherItems_cons, List.nil_append]
    exact List.cons_ne_nil w items

theorem compactMembers_cons (m : String × Json) (members : List (String × Json)) :
    compactMembers (m :: members) =
      memberText [] compact m ++ furtherMembers [] [] compact members := by
  induction members generalizing m with
  | nil => simp [compactMembers, furtherMembers, memberText]
  | cons n members ih =>
    rw [compactMembers, ih, furtherMembers_cons, List.nil_append]
    · simp only [memberText, List.cons_append, List.append_assoc, List.nil_append]
    · exact List.cons_ne_nil n members

theorem indentedItems_cons (level : Nat) (v : Json) (items : List Json) :
    indentedItems level (v :: items) =
      v.indented level ++ furtherItems (newLine level) (indented level) items := by
  induction items generalizing v with
  | nil => simp [indentedItems, furtherItems]
  | cons w items ih =>
    rw [indentedItems, ih, furtherItems_cons]
    · simp only [List.cons_append, List.append_assoc]
    · exact List.cons_ne_nil w items

theorem indentedMembers_cons (level : Nat) (m : String × Json) (members : List (String × Json)) :
    indentedMembers level (m :: members) =
      memberText [' '] (indented level) m ++
        furtherMembers (newLine level) [' '] (indented level) members := by
  induction members generalizing m with
  | nil => simp [indentedMembers, furtherMembers, memberText]
  | cons n members ih =>
    rw [indentedMembers, ih, furtherMembers_cons]
    · simp only [memberText, List.cons_append, List.append_assoc, List.nil_append]
    · exact List.cons_ne_nil n members

theorem isBlank_space : IsBlank [' '] := by
  intro c hc
  rw [List.mem_singleton.mp hc]
  rfl

/-- The compact text of a value is read back. -/
theorem spells_compact (h : Exact v) : Spells v.compact v := by
  induction h with
  | null => exact spells_null
  | bool b => exact spells_bool b
  | integer n hmin hmax => exact spells_integer hmin hmax
  | text s => exact spells_text s
  | array items _ ih =>
    cases items with
    | nil => exact spells_array_nil
    | cons v items =>
      have hspells := spells_array isBlank_nil isBlank_nil items ih
      rw [← compactItems_cons, List.append_nil] at hspells
      rw [compact]
      exact hspells
  | object members _ ih =>
    cases members with
    | nil => exact spells_object_nil
    | cons m members =>
      have hspells := spells_object isBlank_nil isBlank_nil isBlank_nil members ih
      rw [← compactMembers_cons, List.append_nil] at hspells
      rw [compact]
      exact hspells

/-- The indented text of a value is read back, on any level. -/
theorem spells_indented (h : Exact v) (level : Nat) : Spells (v.indented level) v := by
  induction h generalizing level with
  | null => exact spells_null
  | bool b => exact spells_bool b
  | integer n hmin hmax => exact spells_integer hmin hmax
  | text s => exact spells_text s
  | array items _ ih =>
    cases items with
    | nil => exact spells_array_nil
    | cons v items =>
      rw [indented, indentedItems_cons]
      exact spells_array (isBlank_newLine _) (isBlank_newLine _) items
        fun w hw => ih w hw (level + 1)
  | object members _ ih =>
    cases members with
    | nil => exact spells_object_nil
    | cons m members =>
      rw [indented, indentedMembers_cons]
      exact spells_object (isBlank_newLine _) isBlank_space (isBlank_newLine _) members
        fun n hn => ih n hn (level + 1)

/-- A written value is read back, in either layout. -/
theorem parse_render (layout : Layout) (h : Exact v) : parse (v.render layout) = .ok v := by
  have hread : ∀ text, Spells text v → parse (String.ofList text) = .ok v := by
    intro text hspells
    have hvalue := hspells (2 * text.length + 2) [] (by omega) fun _ h => nomatch h
    rw [List.append_nil] at hvalue
    simp only [parse, String.toList_ofList, hvalue, bind, Except.bind]
    rfl
  cases layout with
  | compact => exact hread _ (spells_compact h)
  | indented => exact hread _ (spells_indented h 0)

end FlowWatch.Json
