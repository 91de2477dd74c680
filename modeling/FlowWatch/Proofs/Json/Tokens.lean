/-
JSON strings and integers read back.

A string is written character by character, and `stringFrom_escapedChar` says that the reader takes
exactly the characters that stand for one, so a string is read by induction on it. An integer is a run of
digits, which ends where nothing follows that could go on with a numeral; `EndsNumeral` is that condition
on the text behind it. Within 64 bits no digit is dropped.
-/
import FlowWatch.Proofs.Text.Numerals
import FlowWatch.Json.Reader
import FlowWatch.Time.Instant

set_option autoImplicit false

namespace FlowWatch.Json

open Text

variable {c : Char} {acc rest : List Char}

/-! ## Strings -/

theorem stringFrom_escape {cs : List Char} (h : escape cs = .ok (c, rest)) :
    stringFrom acc ('\\' :: cs) = stringFrom (c :: acc) rest := by
  rw [stringFrom]
  simp only [Char.reduceBEq, Bool.false_eq_true, if_false, if_true]
  split
  · next heq =>
    rw [h] at heq
    cases heq
  · next heq =>
    rw [h] at heq
    cases heq
    rfl

theorem stringFrom_plain (hquote : c ≠ '"') (hslash : c ≠ '\\') (hcontrol : ¬ c.toNat < 0x20) :
    stringFrom acc (c :: rest) = stringFrom (c :: acc) rest := by
  rw [stringFrom, if_neg (by simpa using hquote), if_neg (by simpa using hslash), if_neg hcontrol]

theorem fourHex_control {n : Nat} (h : n < 0x20) :
    fourHex ('0' :: '0' :: digitChar (n / 16) :: digitChar (n % 16) :: rest) = .ok (n, rest) := by
  have hzero : hexDigit? '0' = some 0 := rfl
  have hvalue : 4096 * 0 + 256 * 0 + 16 * (n / 16) + n % 16 = n := by omega
  simp only [fourHex, hzero, hexDigit?_digitChar (n / 16) (by omega),
    hexDigit?_digitChar (n % 16) (by omega), hvalue]

/-- A control character is read off its four digits. -/
theorem escape_control (h : c.toNat < 0x20) :
    escape ('u' :: '0' :: '0' :: digitChar (c.toNat / 16) :: digitChar (c.toNat % 16) :: rest) =
      .ok (c, rest) := by
  have hhigh : ¬ (0xDC00 ≤ c.toNat) := by omega
  have hlow : ¬ (0xD800 ≤ c.toNat) := by omega
  change codeUnits _ = _
  simp [codeUnits, fourHex_control h, bind, Except.bind, hhigh, hlow, Char.ofNat_toNat]

/-- The reader takes back one written character. -/
theorem stringFrom_escapedChar (c : Char) (acc rest : List Char) :
    stringFrom acc (escapedChar c ++ rest) = stringFrom (c :: acc) rest := by
  unfold escapedChar
  split_ifs with hquote hslash hline hreturn htab hback hform hcontrol
  · rw [beq_iff_eq.mp hquote]
    exact stringFrom_escape rfl
  · rw [beq_iff_eq.mp hslash]
    exact stringFrom_escape rfl
  · rw [beq_iff_eq.mp hline]
    exact stringFrom_escape rfl
  · rw [beq_iff_eq.mp hreturn]
    exact stringFrom_escape rfl
  · rw [beq_iff_eq.mp htab]
    exact stringFrom_escape rfl
  · rw [← Char.ofNat_toNat c, beq_iff_eq.mp hback]
    exact stringFrom_escape rfl
  · rw [← Char.ofNat_toNat c, beq_iff_eq.mp hform]
    exact stringFrom_escape rfl
  · exact stringFrom_escape (escape_control hcontrol)
  · exact stringFrom_plain (by simpa using hquote) (by simpa using hslash) hcontrol

theorem stringFrom_flatMap (cs acc rest : List Char) :
    stringFrom acc (cs.flatMap escapedChar ++ '"' :: rest) =
      .ok (String.ofList (acc.reverse ++ cs), rest) := by
  induction cs generalizing acc with
  | nil => simp [stringFrom]
  | cons c cs ih =>
    rw [List.flatMap_cons, List.append_assoc, stringFrom_escapedChar, ih, List.reverse_cons,
      List.append_assoc, List.singleton_append]

/-- A written string is read up to its closing quote. -/
theorem stringBody_stringText (s : String) (rest : List Char) :
    ∃ body, stringText s ++ rest = '"' :: body ∧ stringBody body = .ok (s, rest) := by
  refine ⟨s.toList.flatMap escapedChar ++ '"' :: rest, by simp [stringText], ?_⟩
  rw [stringBody, stringFrom_flatMap, List.reverse_nil, List.nil_append, String.ofList_toList]

/-! ## Integers -/

/-- Nothing that could go on with a numeral stands at the head. -/
def EndsNumeral (rest : List Char) : Prop :=
  ∀ c, rest.head? = some c → isDigit c = false ∧ c ≠ '.' ∧ c ≠ 'e' ∧ c ≠ 'E'

theorem EndsNumeral.any_isDigit (h : EndsNumeral rest) : rest.head?.any isDigit = false := by
  cases hhead : rest.head? with
  | none => rfl
  | some c => exact (h c hhead).1

theorem le_valueFrom (m : Nat) (cs : List Char) : m ≤ Text.valueFrom m cs := by
  induction cs generalizing m with
  | nil => exact Nat.le_refl m
  | cons c cs ih =>
    have hnext := ih (10 * m + digitValue c)
    change m ≤ Text.valueFrom (10 * m + digitValue c) cs
    omega

/-- A value within 64 bits keeps all its digits. -/
theorem mantissa_of_le (m : Nat) (cs : List Char) (h : Text.valueFrom m cs ≤ uint64Max) :
    mantissa m 0 cs = (Text.valueFrom m cs, 0) := by
  induction cs generalizing m with
  | nil => rfl
  | cons c cs ih =>
    change Text.valueFrom (10 * m + digitValue c) cs ≤ uint64Max at h
    have hle := le_valueFrom (10 * m + digitValue c) cs
    have hfits : ((0 == 0) && decide (10 * m + digitValue c ≤ uint64Max)) = true := by
      simp only [BEq.rfl, Bool.true_and, decide_eq_true_eq]
      omega
    rw [mantissa, if_pos hfits, ih _ h]
    rfl

/-- The integer that digits and a sign stand for. Minus zero is none. -/
theorem afterInteger_of_ends {negative : Bool} {digits : List Char}
    (hmax : Text.valueFrom 0 digits ≤ uint64Max)
    (hsigned : negative = true →
      Text.valueFrom 0 digits ≠ 0 ∧ Text.valueFrom 0 digits ≤ 9223372036854775808)
    (hrest : EndsNumeral rest) :
    afterInteger negative digits rest =
      .ok (.integer (if negative then -(Text.valueFrom 0 digits : Int)
        else Text.valueFrom 0 digits), rest) := by
  have hexponent : (rest.head? == some 'e' || rest.head? == some 'E') = false := by
    cases hhead : rest.head? with
    | none => rfl
    | some c =>
      obtain ⟨-, -, he, hE⟩ := hrest c hhead
      simp [he, hE]
  rw [afterInteger.eq_def, mantissa_of_le 0 digits hmax]
  simp only
  split
  · next cs => exact absurd rfl (hrest '.' rfl).2.1
  · rw [hexponent]
    cases negative with
    | false => rfl
    | true =>
      obtain ⟨hzero, hmin⟩ := hsigned rfl
      have hrange : (Text.valueFrom 0 digits == 0 ||
          decide (9223372036854775808 < Text.valueFrom 0 digits)) = false := by
        simp only [Bool.or_eq_false_iff, beq_eq_false_iff_ne, decide_eq_false_iff_not]
        omega
      simp [hrange]

/-- A decimal numeral is read to its end. -/
theorem numberHere_decimal {negative : Bool} {n : Nat} (hrest : EndsNumeral rest) :
    numberHere negative (decimal n ++ rest) = afterInteger negative (decimal n) rest := by
  by_cases hn : n = 0
  · subst hn
    have hzero : decimal 0 = ['0'] := by
      simp only [decimal, numeral_of_lt (show 0 < 8 + 2 by decide)]
      rfl
    rw [hzero]
    simp [numberHere, hrest.any_isDigit]
  · obtain ⟨d, ds, hds⟩ := List.exists_cons_of_ne_nil (decimal_ne_nil n)
    have hdigits : ∀ c ∈ d :: ds, isDigit c = true := by
      rw [← hds]
      exact fun _ => isDigit_of_mem_decimal
    have hhead := decimal_head_ne_zero hn
    rw [hds] at hhead ⊢
    have hnonzero : ¬ (d == '0') = true := by simpa using hhead
    have hd : isDigit d = true := hdigits d List.mem_cons_self
    have htail : ∀ c ∈ ds, isDigit c = true := fun c hc => hdigits c (List.mem_cons_of_mem d hc)
    rw [List.cons_append, numberHere, if_neg hnonzero, if_pos hd,
      takeWhile_isDigit htail hrest.any_isDigit, dropWhile_isDigit htail hrest.any_isDigit]

/-- The first character of an integer, by which a value is taken for a number. -/
theorem signedDecimal_cons (n : Int) :
    ∃ c cs, signedDecimal n = c :: cs ∧ (c == '-' || isDigit c) = true := by
  cases n with
  | ofNat n =>
    obtain ⟨d, ds, hds⟩ := List.exists_cons_of_ne_nil (decimal_ne_nil n)
    have hd : isDigit d = true := isDigit_of_mem_decimal (n := n) (hds ▸ List.mem_cons_self)
    exact ⟨d, ds, hds, by simp [hd]⟩
  | negSucc n => exact ⟨'-', decimal (n + 1), rfl, rfl⟩

/-- An integer of 64 bits, signed or not, is read back. -/
theorem numeral_signedDecimal {n : Int} (hmin : int64Min ≤ n) (hmax : n ≤ uint64Max)
    (hrest : EndsNumeral rest) :
    Json.numeral (signedDecimal n ++ rest) = .ok (.integer n, rest) := by
  cases n with
  | ofNat n =>
    have hsign : Json.numeral (decimal n ++ rest) = numberHere false (decimal n ++ rest) := by
      obtain ⟨d, ds, hds⟩ := List.exists_cons_of_ne_nil (decimal_ne_nil n)
      have hd : isDigit d = true := isDigit_of_mem_decimal (n := n) (hds ▸ List.mem_cons_self)
      rw [hds, List.cons_append, Json.numeral.eq_2]
      intro cs h
      rw [(List.cons.inj h).1] at hd
      exact absurd hd (by decide)
    have hvalue : Text.valueFrom 0 (decimal n) ≤ uint64Max := by
      rw [valueFrom_decimal]
      exact Int.ofNat_le.mp hmax
    change Json.numeral (decimal n ++ rest) = _
    rw [hsign, numberHere_decimal hrest, afterInteger_of_ends hvalue (by simp) hrest,
      valueFrom_decimal]
    rfl
  | negSucc n =>
    have hbound : n + 1 ≤ 9223372036854775808 := by
      simp only [int64Min] at hmin
      omega
    have hvalue : Text.valueFrom 0 (decimal (n + 1)) = n + 1 := valueFrom_decimal _
    change numberHere true (decimal (n + 1) ++ rest) = _
    rw [numberHere_decimal hrest, afterInteger_of_ends (by rw [hvalue, uint64Max]; omega)
      (fun _ => by rw [hvalue]; omega) hrest, hvalue]
    rfl

end FlowWatch.Json
