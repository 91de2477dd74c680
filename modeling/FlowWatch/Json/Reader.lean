/-
Reading JSON text from the left.

Each reader takes the characters ahead and returns what it read with the characters after it, or
says what is wrong: the text breaks the grammar, it ends too early, or it is well formed but not
what was asked for. Readers look no further than they must, so of several faults in a text the
leftmost one is reported.
-/
import FlowWatch.Json.Value
import FlowWatch.Text.Rounding

set_option autoImplicit false

namespace FlowWatch

open Text

/-- What is wrong with a JSON text. -/
inductive JsonError where
  /-- The text is no JSON. -/
  | grammar
  /-- The text ends too early. -/
  | ended
  /-- The value is not of the kind asked for. -/
  | content
  deriving DecidableEq, Repr

namespace JsonError

/-- The fault in words. -/
def message : JsonError → String
  | .grammar => "the text is not well formed"
  | .ended => "the text ends too early"
  | .content => "a value is not of the expected kind"

end JsonError

namespace Json

/-- Reads from the left. -/
abbrev Read (α : Type) := List Char → Except JsonError (α × List Char)

/-- The blanks between tokens. -/
def isGap (c : Char) : Bool := c == ' ' || c == '\n' || c == '\t' || c == '\r'

/-- The characters after leading blanks. -/
def skipGap (cs : List Char) : List Char := cs.dropWhile isGap

/-! ## Strings -/

/-- The value of four hexadecimal digits; a text with fewer than four bytes left has ended. -/
def fourHex : Read Nat
  | a :: b :: c :: d :: rest =>
    match hexDigit? a, hexDigit? b, hexDigit? c, hexDigit? d with
    | some a, some b, some c, some d => .ok (4096 * a + 256 * b + 16 * c + d, rest)
    | _, _, _, _ => .error .grammar
  | cs => .error (if (String.ofList cs).utf8ByteSize < 4 then .ended else .grammar)

/-- What follows one given character. -/
def expectChar (c : Char) : List Char → Except JsonError (List Char)
  | [] => .error .ended
  | d :: rest => if d == c then .ok rest else .error .grammar

/-- The character after a backslash and a `u`: one code unit, or two that form a pair. -/
def codeUnits (cs : List Char) : Except JsonError (Char × List Char) := do
  let (n, cs) ← fourHex cs
  if 0xDC00 ≤ n && n ≤ 0xDFFF then .error .grammar
  else if 0xD800 ≤ n && n ≤ 0xDBFF then
    let cs ← expectChar '\\' cs
    let cs ← expectChar 'u' cs
    let (m, cs) ← fourHex cs
    if 0xDC00 ≤ m && m ≤ 0xDFFF then
      .ok (Char.ofNat (0x10000 + 1024 * (n - 0xD800) + (m - 0xDC00)), cs)
    else .error .grammar
  else .ok (Char.ofNat n, cs)

/-- The character an escape stands for, read after the backslash. -/
def escape : Read Char
  | [] => .error .ended
  | 'u' :: cs => codeUnits cs
  | c :: cs =>
    if c == '"' || c == '\\' || c == '/' then .ok (c, cs)
    else if c == 'b' then .ok (Char.ofNat 8, cs)
    else if c == 'f' then .ok (Char.ofNat 12, cs)
    else if c == 'n' then .ok ('\n', cs)
    else if c == 'r' then .ok ('\r', cs)
    else if c == 't' then .ok ('\t', cs)
    else .error .grammar

theorem fourHex_length {cs rest : List Char} {n : Nat} (h : fourHex cs = .ok (n, rest)) :
    rest.length < cs.length := by
  unfold fourHex at h
  split at h
  · split at h
    · simp only [Except.ok.injEq, Prod.mk.injEq] at h
      obtain ⟨-, rfl⟩ := h
      simp only [List.length_cons]
      omega
    · simp at h
  · simp at h

theorem expectChar_length {c : Char} {cs rest : List Char} (h : expectChar c cs = .ok rest) :
    rest.length < cs.length := by
  unfold expectChar at h
  split at h
  · simp at h
  · split at h
    · simp only [Except.ok.injEq] at h
      simp [h]
    · simp at h

theorem codeUnits_length {cs rest : List Char} {c : Char} (h : codeUnits cs = .ok (c, rest)) :
    rest.length < cs.length := by
  unfold codeUnits at h
  cases h1 : fourHex cs with
  | error e => simp [h1, bind, Except.bind] at h
  | ok p =>
    obtain ⟨n, cs1⟩ := p
    have l1 := fourHex_length h1
    simp only [h1, bind, Except.bind] at h
    split at h
    · simp at h
    · split at h
      · split at h
        · simp at h
        · rename_i cs2 h2
          have l2 := expectChar_length h2
          split at h
          · simp at h
          · rename_i cs3 h3
            have l3 := expectChar_length h3
            split at h
            · simp at h
            · rename_i p h4
              obtain ⟨m, cs4⟩ := p
              have l4 := fourHex_length h4
              simp only at h
              split at h
              · simp only [Except.ok.injEq, Prod.mk.injEq] at h
                obtain ⟨-, rfl⟩ := h
                omega
              · simp at h
      · simp only [Except.ok.injEq, Prod.mk.injEq] at h
        obtain ⟨-, rfl⟩ := h
        omega

/-- An escape takes at least one character. -/
theorem escape_length {cs rest : List Char} {c : Char} (h : escape cs = .ok (c, rest)) :
    rest.length < cs.length := by
  unfold escape at h
  split at h
  · simp at h
  · have := codeUnits_length h
    simp only [List.length_cons]
    omega
  · repeat' split at h
    all_goals
      first
        | (simp only [Except.ok.injEq, Prod.mk.injEq] at h
           obtain ⟨-, rfl⟩ := h
           simp)
        | simp at h

/-- Reads the rest of a string, after its opening quote, behind the characters `acc` in reverse. -/
def stringFrom (acc : List Char) : List Char → Except JsonError (String × List Char)
  | [] => .error .ended
  | c :: cs =>
    if c == '"' then .ok (String.ofList acc.reverse, cs)
    else if c == '\\' then
      match _h : escape cs with
      | .error e => .error e
      | .ok (d, cs) => stringFrom (d :: acc) cs
    else if c.toNat < 0x20 then .error .grammar
    else stringFrom (c :: acc) cs
termination_by cs => cs.length
decreasing_by
  · have := escape_length _h
    simp only [List.length_cons]
    omega
  · simp

/-- Reads a string after its opening quote. -/
def stringBody (cs : List Char) : Except JsonError (String × List Char) := stringFrom [] cs

/-! ## Numbers -/

/-- The greatest unsigned 64-bit integer. -/
def uint64Max : Nat := 18446744073709551615

/-- The digits of a numeral as far as they fit 64 bits, and how many more follow. -/
def mantissa : Nat → Nat → List Char → Nat × Nat
  | m, dropped, [] => (m, dropped)
  | m, dropped, c :: cs =>
    if dropped == 0 && 10 * m + digitValue c ≤ uint64Max then
      mantissa (10 * m + digitValue c) 0 cs
    else (m, dropped + 1 + cs.length)

/-- Whether `m * 10 ^ e` is beyond the range of a double-precision number. It is found by one
multiplication, so each factor is rounded to double precision before the product is. -/
def isTooLarge (m : Nat) (e : Int) : Bool :=
  if m == 0 then false
  else if e ≥ 309 then true
  else if e < 0 then false
  else
    roundToDouble m * roundToDouble (Nat.pow 10 e.toNat) ≥ Nat.pow 2 1024 - Nat.pow 2 970

/-- Exponents are cut off at this size; a number with a greater one is zero or too large. -/
def exponentBound : Nat := 2147483647

/-- The optional exponent part of a numeral with the value `m * 10 ^ e` so far. -/
def exponentPart (m : Nat) (e : Int) : List Char → Except JsonError (JsonNumber × List Char)
  | c :: cs =>
    if c == 'e' || c == 'E' then
      let (negative, cs) := match cs with
        | '+' :: cs => (false, cs)
        | '-' :: cs => (true, cs)
        | cs => (false, cs)
      match cs with
      | [] => .error .ended
      | d :: _ =>
        if !isDigit d then .error .grammar
        else
          let n := valueUpTo exponentBound (cs.takeWhile isDigit)
          if isTooLarge m (e + if negative then -(n : Int) else n) then .error .grammar
          else .ok (.other, cs.dropWhile isDigit)
    else if isTooLarge m e then .error .grammar
    else .ok (.other, c :: cs)
  | [] => if isTooLarge m e then .error .grammar else .ok (.other, [])

/-- What follows the integer digits of a numeral. -/
def afterInteger (negative : Bool) (digits cs : List Char) :
    Except JsonError (JsonNumber × List Char) :=
  let (m, dropped) := mantissa 0 0 digits
  match cs with
  | '.' :: rest =>
    let fraction := rest.takeWhile isDigit
    let rest := rest.dropWhile isDigit
    if fraction.isEmpty then .error (if rest.isEmpty then .ended else .grammar)
    else
      -- Each integer digit that did not fit moves the exponent, each fraction digit that fits back.
      let (m', dropped') := mantissa m 0 fraction
      exponentPart m' (dropped - (fraction.length - dropped' : Int)) rest
  | _ =>
    let isExponent := cs.head? == some 'e' || cs.head? == some 'E'
    if isExponent || dropped != 0 then exponentPart m dropped cs
    else if !negative then .ok (.integer m, cs)
    -- Minus zero and numbers below the signed range are no integers.
    else if m == 0 || 9223372036854775808 < m then .ok (.other, cs)
    else .ok (.integer (-m), cs)

/-- Reads a number that starts here. -/
def numberHere (negative : Bool) : List Char → Except JsonError (JsonNumber × List Char)
  | [] => .error .ended
  | c :: cs =>
    if c == '0' then
      if cs.head?.any isDigit then .error .grammar else afterInteger negative ['0'] cs
    else if isDigit c then
      afterInteger negative (c :: cs.takeWhile isDigit) (cs.dropWhile isDigit)
    else .error .grammar

/-- Reads a number with an optional minus sign. -/
def numeral : List Char → Except JsonError (JsonNumber × List Char)
  | '-' :: cs => numberHere true cs
  | cs => numberHere false cs

/-! ## Words -/

/-- Reads the rest of a word. -/
def word : List Char → List Char → Except JsonError (List Char)
  | [], cs => .ok cs
  | w :: ws, cs => do word ws (← expectChar w cs)

/-! ## Values -/

mutual

/-- Reads a value; the fuel bounds the length of the text. -/
def valueFrom : Nat → Read Json
  | 0, _ => .error .ended
  | fuel + 1, cs =>
    match skipGap cs with
    | [] => .error .ended
    | c :: cs =>
      if c == '"' then do
        let (s, cs) ← stringBody cs
        return (.text s, cs)
      else if c == '[' then itemsFrom fuel true [] cs
      else if c == '\x7b' then membersFrom fuel true [] cs
      else if c == 'n' then do return (.null, ← word ['u', 'l', 'l'] cs)
      else if c == 't' then do return (.bool true, ← word ['r', 'u', 'e'] cs)
      else if c == 'f' then do return (.bool false, ← word ['a', 'l', 's', 'e'] cs)
      else if c == '-' || isDigit c then do
        let (n, cs) ← numeral (c :: cs)
        return (.number n, cs)
      else .error .grammar

/-- Reads the rest of an array behind the items `acc` in reverse. -/
def itemsFrom : Nat → Bool → List Json → Read Json
  | 0, _, _, _ => .error .ended
  | fuel + 1, isFirst, acc, cs =>
    match skipGap cs with
    | [] => .error .ended
    | c :: rest =>
      if c == ']' then .ok (.array acc.reverse, rest)
      else if c == ',' && !isFirst then
        match skipGap rest with
        | [] => .error .ended
        | d :: _ =>
          if d == ']' then .error .grammar
          else do
            let (v, cs) ← valueFrom fuel rest
            itemsFrom fuel false (v :: acc) cs
      else if isFirst then do
        let (v, cs) ← valueFrom fuel (c :: rest)
        itemsFrom fuel false (v :: acc) cs
      else .error .grammar

/-- Reads the rest of an object behind the members `acc` in reverse. -/
def membersFrom : Nat → Bool → List (String × Json) → Read Json
  | 0, _, _, _ => .error .ended
  | fuel + 1, isFirst, acc, cs =>
    match skipGap cs with
    | [] => .error .ended
    | c :: rest =>
      if c == '\x7d' then .ok (.object acc.reverse, rest)
      else
        let here := if c == ',' && !isFirst then some (skipGap rest)
          else if isFirst then some (c :: rest) else none
        match here with
        | none => .error .grammar
        | some [] => .error .ended
        | some (d :: rest) =>
          if d != '"' then .error .grammar
          else do
            let (k, cs) ← stringBody rest
            let cs ← expectChar ':' (skipGap cs)
            let (v, cs) ← valueFrom fuel cs
            membersFrom fuel false ((k, v) :: acc) cs

end

/-- Accepts a text that has nothing but blanks left. -/
def atEnd {α : Type} (v : α) (cs : List Char) : Except JsonError α :=
  if (skipGap cs).isEmpty then .ok v else .error .grammar

/-- The value a text stands for. -/
def parse (s : String) : Except JsonError Json := do
  let cs := s.toList
  let (v, rest) ← valueFrom (2 * cs.length + 2) cs
  atEnd v rest

end Json

end FlowWatch
