/-
What a start line is made of.

The words of a line, the line end behind it, a version and a target, each as it is put in writing. The
parts carry the proofs that they are well formed: a version has two numbers that are not too great, a
target has one of four forms, and neither has place for the separators of the line. So what the readers
make of them is known for all of them at once; and no other versions and targets are accepted.
-/
import FlowWatch.Http.Message
import FlowWatch.Proofs.Http.Lines
import FlowWatch.Proofs.Text.Utf8

set_option autoImplicit false

namespace FlowWatch.Http

open Text

/-! ## Words -/

section Words

variable {a : Char} {word : List Char}

theorem takeWhile_last (h : a ∉ word) : word.takeWhile (· != a) = word := by
  apply List.takeWhile_eq_self_iff.mpr
  intro c hc
  rw [bne_iff_ne]
  rintro rfl
  exact h hc

/-- A word ends at the first separator. -/
theorem takeWhile_word (h : a ∉ word) (rest : List Char) :
    (word ++ a :: rest).takeWhile (· != a) = word := by
  have hword := takeWhile_last h
  rw [List.takeWhile_eq_self_iff] at hword
  rw [List.takeWhile_append_of_pos hword, List.takeWhile_cons_of_neg (by simp), List.append_nil]

end Words

/-- A text is its first word, and the separator and what is behind it if there is one. -/
theorem takeWhile_cases (a : Char) (cs : List Char) :
    a ∉ cs.takeWhile (· != a) ∧
      (cs.drop (cs.takeWhile (· != a)).length = [] ∧ cs = cs.takeWhile (· != a) ∨
        ∃ rest, cs.drop (cs.takeWhile (· != a)).length = a :: rest ∧
          cs = cs.takeWhile (· != a) ++ a :: rest) := by
  have hcut := List.takeWhile_append_dropWhile (p := (· != a)) (l := cs)
  refine ⟨fun ha => ?_, ?_⟩
  · simpa using List.mem_takeWhile_imp ha
  · rw [drop_takeWhile]
    rcases hrest : cs.dropWhile (· != a) with _ | ⟨b, rest⟩
    · rw [hrest, List.append_nil] at hcut
      exact Or.inl ⟨rfl, hcut.symm⟩
    · obtain rfl : b = a := by
        have hstop := List.head?_dropWhile_not (· != a) cs
        rw [hrest] at hstop
        simpa using hstop
      rw [hrest] at hcut
      exact Or.inr ⟨rest, rfl, hcut.symm⟩

theorem threeWords_of_three {first second : List Char} (hfirst : ' ' ∉ first) (hsecond : ' ' ∉ second)
    (third : List Char) :
    threeWords (first ++ ' ' :: (second ++ ' ' :: third)) =
      (first, some (second, some third)) := by
  unfold threeWords
  dsimp only
  rw [takeWhile_word hfirst, List.drop_left' rfl]
  dsimp only
  rw [Option.map_some, takeWhile_word hsecond, List.drop_left' rfl]

theorem threeWords_of_two {first second : List Char} (hfirst : ' ' ∉ first) (hsecond : ' ' ∉ second) :
    threeWords (first ++ ' ' :: second) = (first, some (second, none)) := by
  unfold threeWords
  dsimp only
  rw [takeWhile_word hfirst, List.drop_left' rfl]
  dsimp only
  rw [Option.map_some, takeWhile_last hsecond, List.drop_length]

/-! ## The end of a start line -/

/-- What stands behind the text of a start line. A payload may end there, in the middle of the line end
too. -/
inductive Remainder where
  | cut
  | cutAtReturn
  | feed (rest : List UInt8)
  | returnFeed (rest : List UInt8)

namespace Remainder

/-- The carriage return before the line feed, if there is one. -/
def mark : Remainder → List UInt8
  | .cut | .feed _ => []
  | .cutAtReturn | .returnFeed _ => [13]

/-- What comes after the line: header lines, and a body. -/
def rest : Remainder → List UInt8
  | .cut | .cutAtReturn => []
  | .feed rest | .returnFeed rest => rest

/-- All bytes behind the text of the start line. -/
def bytes : Remainder → List UInt8
  | .cut => []
  | .cutAtReturn => [13]
  | .feed rest => Cursor.lineFeed :: rest
  | .returnFeed rest => 13 :: Cursor.lineFeed :: rest

/-- Behind a line without line feeds the remainder ends it, unless there is nothing at all. -/
theorem linesOf_append {line : List UInt8} (hline : Cursor.lineFeed ∉ line) (r : Remainder)
    (hne : line ++ r.bytes ≠ []) :
    linesOf (line ++ r.bytes) = Cursor.dropReturn (line ++ r.mark) :: linesOf r.rest := by
  have hfree : ∀ b ∈ line, b ≠ Cursor.lineFeed := fun b hb he => hline (he ▸ hb)
  have hmarked : ∀ b ∈ line ++ [13], b ≠ Cursor.lineFeed := by
    intro b hb
    rcases List.mem_append.mp hb with hold | hmark
    · exact hfree b hold
    · rw [List.mem_singleton.mp hmark]
      decide
  unfold linesOf
  cases r with
  | cut =>
    have hsome : line ≠ [] := by
      rintro rfl
      exact hne rfl
    obtain ⟨b, tail, rfl⟩ := List.exists_cons_of_ne_nil hsome
    show (piecesOf (b :: tail ++ [])).map _ = _ :: (piecesOf []).map _
    rw [List.append_nil, piecesOf_last hfree]
    show [_] = [Cursor.dropReturn (b :: tail ++ [])]
    rw [List.append_nil]
  | cutAtReturn =>
    obtain ⟨b, tail, hcons⟩ : ∃ b tail, line ++ [13] = b :: tail := List.exists_cons_of_ne_nil hne
    show (piecesOf (line ++ [13])).map _ = [Cursor.dropReturn (line ++ [13])]
    rw [hcons] at hmarked ⊢
    rw [piecesOf_last hmarked]
    rfl
  | feed rest =>
    show (piecesOf (line ++ Cursor.lineFeed :: rest)).map _ =
      Cursor.dropReturn (line ++ []) :: (piecesOf rest).map _
    rw [piecesOf_append hfree, List.append_nil]
    rfl
  | returnFeed rest =>
    have hshape : line ++ (13 :: Cursor.lineFeed :: rest) =
        (line ++ [13]) ++ Cursor.lineFeed :: rest := by simp
    show (piecesOf (line ++ (13 :: Cursor.lineFeed :: rest))).map _ =
      Cursor.dropReturn (line ++ [13]) :: (piecesOf rest).map _
    rw [hshape, piecesOf_append hmarked]
    rfl

end Remainder

/-- The text without one carriage return at its end. -/
def dropReturnChar (text : List Char) : List Char :=
  if text.getLast? = some '\r' then text.dropLast else text

theorem dropReturn_marked (line : List UInt8) : Cursor.dropReturn (line ++ [13]) = line := by
  unfold Cursor.dropReturn
  rw [List.getLast?_concat, List.dropLast_concat]
  rfl

/-- The carriage return of a text is its last byte. -/
theorem dropReturn_encode (text : List Char) :
    Cursor.dropReturn (Utf8.encode text) = Utf8.encode (dropReturnChar text) := by
  rcases List.eq_nil_or_concat text with rfl | ⟨init, c, rfl⟩
  · rfl
  · have hbytes : Utf8.encode (init ++ [c]) = Utf8.encode init ++ Utf8.encodeChar c := by
      rw [Utf8.encode_append, Utf8.encode_cons]
      exact congrArg _ (List.append_nil _)
    rw [List.concat_eq_append]
    unfold dropReturnChar
    rw [List.getLast?_concat, List.dropLast_concat]
    by_cases hc : c = '\r'
    · subst hc
      have hreturn : Utf8.encodeChar '\r' = [13] := by decide
      rw [if_pos rfl, hbytes, hreturn, dropReturn_marked]
    · rw [if_neg fun h => hc (Option.some.inj h)]
      unfold Cursor.dropReturn
      apply if_neg
      intro hlast
      have hlast' : (Utf8.encode (init ++ [c])).getLast? = some 13 := by simpa using hlast
      rw [hbytes, List.getLast?_append_of_ne_nil _ (Utf8.encodeChar_ne_nil c)] at hlast'
      obtain ⟨hcode, -⟩ := Utf8.encodeChar_of_ascii (List.mem_of_getLast? hlast') (by decide)
      exact hc (Char.toNat_inj.mp hcode)

/-- The text of a start line as it is read. -/
def Remainder.shown (r : Remainder) (text : List Char) : List Char :=
  match r with
  | .cut | .feed _ => dropReturnChar text
  | .cutAtReturn | .returnFeed _ => text

theorem dropReturnChar_of_not_mem {text : List Char} (h : '\r' ∉ text) : dropReturnChar text = text := by
  apply if_neg
  intro hlast
  exact h (List.mem_of_getLast? hlast)

/-- What stands before the last part of a text stays. -/
theorem dropReturnChar_append (init : List Char) {a : Char} (ha : a ≠ '\r') (tail : List Char) :
    dropReturnChar (init ++ a :: tail) = init ++ a :: dropReturnChar tail := by
  rcases List.eq_nil_or_concat tail with rfl | ⟨tail, c, rfl⟩
  · unfold dropReturnChar
    rw [List.getLast?_concat, if_neg fun h => ha (Option.some.inj h)]
    rfl
  · have hshape : init ++ a :: (tail ++ [c]) = init ++ a :: tail ++ [c] := by simp
    rw [List.concat_eq_append, hshape]
    unfold dropReturnChar
    rw [List.getLast?_concat, List.getLast?_concat, List.dropLast_concat, List.dropLast_concat]
    split_ifs
    · rfl
    · exact hshape.symm

namespace Remainder

variable (r : Remainder)

/-- **A written line is read as it is shown**, and the lines behind it are those of the rest. -/
theorem linesOf_text {text : List Char} (hfeed : '\n' ∉ text)
    (hne : Utf8.encode text ++ r.bytes ≠ []) :
    linesOf (Utf8.encode text ++ r.bytes) = Utf8.encode (r.shown text) :: linesOf r.rest := by
  have hline : Cursor.lineFeed ∉ Utf8.encode text :=
    fun h => hfeed (Utf8.mem_of_mem_encode rfl (by decide) h)
  have hshown : Cursor.dropReturn (Utf8.encode text ++ r.mark) = Utf8.encode (r.shown text) := by
    cases r with
    | cut => exact (congrArg _ (List.append_nil _)).trans (dropReturn_encode text)
    | cutAtReturn => exact dropReturn_marked _
    | feed rest => exact (congrArg _ (List.append_nil _)).trans (dropReturn_encode text)
    | returnFeed rest => exact dropReturn_marked _
  rw [linesOf_append hline r hne, hshown]

theorem shown_of_not_mem {text : List Char} (h : '\r' ∉ text) : r.shown text = text := by
  cases r with
  | cut => exact dropReturnChar_of_not_mem h
  | cutAtReturn => rfl
  | feed rest => exact dropReturnChar_of_not_mem h
  | returnFeed rest => rfl

theorem shown_append (init : List Char) {a : Char} (ha : a ≠ '\r') (tail : List Char) :
    r.shown (init ++ a :: tail) = init ++ a :: r.shown tail := by
  cases r with
  | cut => exact dropReturnChar_append init ha tail
  | cutAtReturn => rfl
  | feed rest => exact dropReturnChar_append init ha tail
  | returnFeed rest => rfl

end Remainder

/-! ## Versions -/

/-- The number of a component without its sign. -/
def number? (digits : List Char) : Option Nat :=
  let n := valueUpTo (greatestComponent + 1) digits
  if digits.isEmpty || !digits.all isDigit || greatestComponent < n then none else some n

theorem component?_plus (digits : List Char) : component? ('+' :: digits) = number? digits := rfl

theorem component?_of_head {cs : List Char} (h : ∀ digits, cs ≠ '+' :: digits) :
    component? cs = number? cs := by
  unfold component?
  split
  · exact absurd rfl (h _)
  · rfl

/-- Digits of a number that is not too great, and nothing else. -/
theorem number?_eq_some_iff {digits : List Char} {n : Nat} :
    number? digits = some n ↔ digits ≠ [] ∧ (∀ c ∈ digits, isDigit c = true) ∧
      valueFrom 0 digits ≤ greatestComponent ∧ valueFrom 0 digits = n := by
  unfold number?
  dsimp only
  rw [valueUpTo_eq]
  constructor
  · intro h
    split_ifs at h with hbad
    have hn := Option.some.inj h
    simp only [Bool.or_eq_true, List.isEmpty_iff, Bool.not_eq_true', decide_eq_true_eq, not_or,
      Bool.not_eq_false, List.all_eq_true] at hbad
    obtain ⟨⟨hne, hall⟩, hle⟩ := hbad
    refine ⟨hne, hall, ?_, ?_⟩ <;> omega
  · rintro ⟨hne, hall, hle, rfl⟩
    -- Cutting at the bound changes nothing below it.
    have hvalue : min (greatestComponent + 1) (valueFrom 0 digits) = valueFrom 0 digits := by omega
    have hempty : digits.isEmpty = false := List.isEmpty_eq_false_iff.mpr hne
    have hdigits : digits.all isDigit = true := List.all_eq_true.mpr hall
    rw [hvalue, hempty, hdigits]
    exact if_neg (by simpa using hle)

/-- A version component: decimal digits of a number that is not too great, after a plus sign or
without. -/
structure Component where
  plus : Bool
  digits : List Char
  digits_ne_nil : digits ≠ []
  digits_isDigit : ∀ c ∈ digits, isDigit c = true
  value_le : valueFrom 0 digits ≤ greatestComponent

namespace Component

/-- The component in writing. -/
def text (c : Component) : List Char := if c.plus then '+' :: c.digits else c.digits

theorem not_mem_text (c : Component) {a : Char} (ha : isDigit a = false) (hplus : a ≠ '+') :
    a ∉ c.text := by
  have hdigits : a ∉ c.digits := by
    intro hmem
    rw [c.digits_isDigit a hmem] at ha
    exact absurd ha (by simp)
  unfold text
  split_ifs
  · exact List.not_mem_cons_of_ne_of_not_mem hplus hdigits
  · exact hdigits

theorem component?_text (c : Component) : component? c.text = some (valueFrom 0 c.digits) := by
  have hnumber : number? c.digits = some (valueFrom 0 c.digits) :=
    number?_eq_some_iff.mpr ⟨c.digits_ne_nil, c.digits_isDigit, c.value_le, rfl⟩
  unfold text
  split_ifs
  · rw [component?_plus, hnumber]
  · rw [component?_of_head, hnumber]
    intro digits hsign
    -- The first digit is no plus sign.
    have hdigit := c.digits_isDigit '+' (hsign ▸ List.mem_cons_self)
    exact absurd hdigit (by decide)

/-- Nothing else is taken for a component. -/
theorem of_component? {cs : List Char} {n : Nat} (h : component? cs = some n) :
    ∃ c : Component, c.text = cs ∧ valueFrom 0 c.digits = n := by
  by_cases hplus : ∃ digits, cs = '+' :: digits
  · obtain ⟨digits, rfl⟩ := hplus
    obtain ⟨hne, hall, hle, hvalue⟩ := number?_eq_some_iff.mp h
    exact ⟨⟨true, digits, hne, hall, hle⟩, rfl, hvalue⟩
  · rw [component?_of_head (not_exists.mp hplus)] at h
    obtain ⟨hne, hall, hle, hvalue⟩ := number?_eq_some_iff.mp h
    exact ⟨⟨false, cs, hne, hall, hle⟩, rfl, hvalue⟩

end Component

/-- A protocol version in writing. -/
structure VersionText where
  major : Component
  minor : Component

namespace VersionText

/-- The version as it is written. -/
def text (v : VersionText) : List Char :=
  versionOpening ++ (v.major.text ++ '.' :: v.minor.text)

/-- The version that is meant. -/
def version (v : VersionText) : Version :=
  ⟨valueFrom 0 v.major.digits, valueFrom 0 v.minor.digits⟩

theorem not_mem_text (v : VersionText) {a : Char} (ha : isDigit a = false) (hplus : a ≠ '+')
    (hopening : a ∉ versionOpening) (hpoint : a ≠ '.') : a ∉ v.text := by
  unfold text
  rw [List.mem_append, List.mem_append, List.mem_cons]
  rintro (h | h | h | h)
  · exact hopening h
  · exact v.major.not_mem_text ha hplus h
  · exact hpoint h
  · exact v.minor.not_mem_text ha hplus h

theorem no_space (v : VersionText) : ' ' ∉ v.text :=
  v.not_mem_text (by decide) (by decide) (by decide) (by decide)

theorem no_feed (v : VersionText) : '\n' ∉ v.text :=
  v.not_mem_text (by decide) (by decide) (by decide) (by decide)

theorem no_return (v : VersionText) : '\r' ∉ v.text :=
  v.not_mem_text (by decide) (by decide) (by decide) (by decide)

theorem parse_text (v : VersionText) : Version.parse v.text = .ok v.version := by
  have hpoint : '.' ∉ v.major.text := v.major.not_mem_text (by decide) (by decide)
  have hopening : versionOpening.isPrefixOf v.text = true := by
    rw [List.isPrefixOf_iff_prefix]
    exact List.prefix_append _ _
  have hnumbers : v.text.drop versionOpening.length = v.major.text ++ '.' :: v.minor.text :=
    List.drop_left' rfl
  have hversion : version? v.text = some v.version := by
    unfold version?
    rw [hopening, if_pos rfl]
    dsimp only
    rw [hnumbers, takeWhile_word hpoint, List.drop_left' rfl]
    dsimp only
    rw [v.major.component?_text, v.minor.component?_text]
    rfl
  unfold Version.parse
  rw [hversion]

/-- Nothing else is taken for a version. -/
theorem of_version? {cs : List Char} {version : Version} (h : version? cs = some version) :
    ∃ v : VersionText, v.text = cs ∧ v.version = version := by
  unfold version? at h
  by_cases hopening : versionOpening.isPrefixOf cs = true
  · obtain ⟨numbers, rfl⟩ := List.isPrefixOf_iff_prefix.mp hopening
    rw [if_pos hopening] at h
    dsimp only at h
    rw [List.drop_left' rfl] at h
    rcases (takeWhile_cases '.' numbers).2 with ⟨hdrop, -⟩ | ⟨minor, hdrop, hnumbers⟩
    · rw [hdrop] at h
      exact absurd h (by simp)
    · rw [hdrop] at h
      obtain ⟨m, hm, hminor⟩ := Option.bind_eq_some_iff.mp h
      obtain ⟨n, hn, heq⟩ := Option.bind_eq_some_iff.mp hminor
      obtain ⟨major, hmajor, rfl⟩ := Component.of_component? hm
      obtain ⟨minor, rfl, rfl⟩ := Component.of_component? hn
      refine ⟨⟨major, minor⟩, ?_, Option.some.inj heq⟩
      unfold text
      rw [hmajor, ← hnumbers]
  · rw [if_neg hopening] at h
    exact absurd h (by simp)

/-- **These are the texts that are accepted as versions.** -/
theorem parse_eq_ok_iff {cs : List Char} {version : Version} :
    Version.parse cs = .ok version ↔ ∃ v : VersionText, v.text = cs ∧ v.version = version := by
  constructor
  · intro h
    unfold Version.parse at h
    rcases hv : version? cs with _ | v
    · rw [hv] at h
      exact absurd h (by simp)
    · rw [hv] at h
      obtain rfl := Except.ok.inj h
      exact of_version? hv
  · rintro ⟨v, rfl, rfl⟩
    exact v.parse_text

end VersionText

/-! ## Targets -/

/-- The characters that end an authority. -/
def endsAuthority (c : Char) : Bool := c == '/' || c == '?' || c == '#'

theorem takeWhile_authority (cs : List Char) :
    cs.takeWhile (fun c => c != '/' && c != '?' && c != '#') =
      cs.takeWhile fun c => !endsAuthority c := by
  have hends : (fun c : Char => c != '/' && c != '?' && c != '#') = fun c => !endsAuthority c := by
    funext c
    unfold endsAuthority
    rw [Bool.not_or, Bool.not_or]
    rfl
  rw [hends]

/-- The four forms of a request target, each with the authority it names. -/
inductive TargetForm : List Char → Option String → Prop where
  | asterisk : TargetForm ['*'] none
  | origin (path : List Char) : TargetForm ('/' :: path) none
  | absolute {scheme name path : List Char} (hscheme : scheme ≠ [])
    (hchars : ∀ c ∈ scheme, isSchemeChar c = true) (hname : ∀ c ∈ name, endsAuthority c = false)
    (hpath : ∀ c ∈ path.head?, endsAuthority c = true) :
    TargetForm (scheme ++ ':' :: '/' :: '/' :: (name ++ path))
      (if name.isEmpty then none else some (String.ofList name))
  | authority {name : List Char} (hport : ':' ∈ name) (hpath : '/' ∉ name) :
    TargetForm name (some (String.ofList name))

theorem splitScheme_of_scheme {scheme : List Char} (h : ∀ c ∈ scheme, isSchemeChar c = true)
    (rest : List Char) : splitScheme (scheme ++ ':' :: '/' :: '/' :: rest) = some (scheme, rest) := by
  induction scheme with
  | nil => rfl
  | cons c scheme ih =>
    have hc : c ≠ ':' := by
      rintro rfl
      exact absurd (h ':' List.mem_cons_self) (by decide)
    have htail := ih fun a ha => h a (List.mem_cons_of_mem c ha)
    rw [List.cons_append, splitScheme]
    · rw [htail]
      rfl
    · intro rest' hcolon
      exact absurd hcolon hc

/-- Without a slash there is no scheme. -/
theorem splitScheme_of_no_slash {cs : List Char} (h : '/' ∉ cs) : splitScheme cs = none := by
  induction cs with
  | nil => rfl
  | cons c cs ih =>
    have htail : '/' ∉ cs := List.not_mem_of_not_mem_cons h
    rw [splitScheme]
    · rw [ih htail]
      rfl
    · intro rest _ hrest
      exact htail (hrest ▸ List.mem_cons_self)

/-- **Every form of target is accepted** and names its authority. -/
theorem TargetForm.authority_eq {target : List Char} {name? : Option String}
    (h : TargetForm target name?) : Http.authority target = .ok name? := by
  cases h with
  | asterisk => rfl
  | origin path => rfl
  | @absolute scheme name path hscheme hchars hname hpath =>
    obtain ⟨c, tail, rfl⟩ := List.exists_cons_of_ne_nil hscheme
    have hc := hchars c List.mem_cons_self
    have hslash : c ≠ '/' := by
      rintro rfl
      exact absurd hc (by decide)
    have hall : (c :: tail).all isSchemeChar = true := List.all_eq_true.mpr hchars
    have hcut : (name ++ path).takeWhile (fun c => c != '/' && c != '?' && c != '#') = name := by
      rw [takeWhile_authority, List.takeWhile_append_of_pos fun a ha => by rw [hname a ha]; rfl]
      rcases path with _ | ⟨d, path⟩
      · exact List.append_nil _
      · rw [List.takeWhile_cons_of_neg (by rw [hpath d rfl]; decide)]
        exact List.append_nil _
    have hnoform : ((c :: tail ++ ':' :: '/' :: '/' :: (name ++ path)) == ['*'] ||
        (c :: tail ++ ':' :: '/' :: '/' :: (name ++ path)).head? == some '/') = false := by
      rw [List.cons_append]
      simp [hslash]
    unfold Http.authority
    rw [hnoform, if_neg Bool.false_ne_true, splitScheme_of_scheme hchars]
    dsimp only
    rw [hall, hcut]
    rfl
  | authority hport hpath =>
    have hnoform : (target == ['*'] || target.head? == some '/') = false := by
      rw [Bool.or_eq_false_iff]
      constructor
      · apply beq_eq_false_iff_ne.mpr
        rintro rfl
        exact absurd hport (by decide)
      · apply beq_eq_false_iff_ne.mpr
        intro hhead
        exact hpath (List.mem_of_mem_head? hhead)
    have hbare : (target.contains ':' && !target.contains '/') = true := by
      rw [Bool.and_eq_true, List.contains_iff_mem]
      refine ⟨hport, ?_⟩
      rw [Bool.not_eq_true', Bool.eq_false_iff]
      intro hslash
      exact hpath (List.contains_iff_mem.mp hslash)
    unfold Http.authority
    rw [hnoform, if_neg Bool.false_ne_true, splitScheme_of_no_slash hpath]
    dsimp only
    rw [hbare]
    rfl

theorem splitScheme_eq_some {cs scheme rest : List Char} (h : splitScheme cs = some (scheme, rest)) :
    cs = scheme ++ ':' :: '/' :: '/' :: rest := by
  induction cs generalizing scheme with
  | nil => exact absurd h (by simp [splitScheme])
  | cons c cs ih =>
    unfold splitScheme at h
    split at h
    · obtain ⟨rfl, rfl⟩ := Prod.mk.inj (Option.some.inj h)
      rfl
    · obtain ⟨⟨front, back⟩, hcut, heq⟩ := Option.map_eq_some_iff.mp h
      obtain ⟨rfl, rfl⟩ := Prod.mk.inj heq
      rw [ih hcut]
      rfl

/-- **No other target is accepted.** -/
theorem TargetForm.of_authority {target : List Char} {name? : Option String}
    (h : Http.authority target = .ok name?) : TargetForm target name? := by
  unfold Http.authority at h
  by_cases hshort : (target == ['*'] || target.head? == some '/') = true
  · rw [if_pos hshort] at h
    obtain rfl := Except.ok.inj h
    rcases Bool.or_eq_true_iff.mp hshort with hstar | hslash
    · rw [eq_of_beq hstar]
      exact .asterisk
    · obtain ⟨path, rfl⟩ := List.head?_eq_some_iff.mp (eq_of_beq hslash)
      exact .origin path
  · rw [if_neg hshort] at h
    rcases hcut : splitScheme target with _ | ⟨scheme, rest⟩
    · rw [hcut] at h
      dsimp only at h
      split_ifs at h with hbare
      obtain rfl := Except.ok.inj h
      simp only [Bool.and_eq_true, List.contains_iff_mem, Bool.not_eq_true', Bool.eq_false_iff,
        ne_eq] at hbare
      exact .authority hbare.1 hbare.2
    · rw [hcut] at h
      dsimp only at h
      by_cases hscheme : (scheme.isEmpty || !scheme.all isSchemeChar) = true
      · rw [if_pos hscheme] at h
        exact absurd h (by simp)
      · rw [if_neg hscheme, takeWhile_authority] at h
        obtain rfl := Except.ok.inj h
        obtain ⟨hne, hchars⟩ : scheme ≠ [] ∧ ∀ c ∈ scheme, isSchemeChar c = true := by
          simpa using hscheme
        -- The authority is what precedes the first character that ends one.
        have hrest : rest.takeWhile (fun c => !endsAuthority c) ++
            rest.dropWhile (fun c => !endsAuthority c) = rest := List.takeWhile_append_dropWhile
        have hname : ∀ c ∈ rest.takeWhile (fun c => !endsAuthority c), endsAuthority c = false := by
          intro c hc
          simpa using List.mem_takeWhile_imp hc
        have hpath : ∀ c ∈ (rest.dropWhile fun c => !endsAuthority c).head?,
            endsAuthority c = true := by
          intro c hc
          have hstop := List.head?_dropWhile_not (fun c => !endsAuthority c) rest
          rw [Option.mem_def.mp hc] at hstop
          simpa using hstop
        have hform := TargetForm.absolute hne hchars hname hpath
        rw [hrest] at hform
        rw [splitScheme_eq_some hcut]
        exact hform

/-- **The four forms are the targets that are accepted**, with the authority they name. -/
theorem authority_eq_ok_iff {target : List Char} {name? : Option String} :
    Http.authority target = .ok name? ↔ TargetForm target name? :=
  ⟨TargetForm.of_authority, TargetForm.authority_eq⟩

theorem TargetForm.ne_nil {target : List Char} {name? : Option String}
    (h : TargetForm target name?) : target ≠ [] := by
  cases h with
  | asterisk => exact List.cons_ne_nil _ _
  | origin path => exact List.cons_ne_nil _ _
  | absolute => simp
  | authority hport => exact List.ne_nil_of_mem hport

/-- A request target in writing. It has no place for spaces and line feeds. -/
structure Target where
  text : List Char
  authority : Option String
  form : TargetForm text authority
  no_space : ' ' ∉ text
  no_feed : '\n' ∉ text

end FlowWatch.Http
