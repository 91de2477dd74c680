/-
Timestamps read back.

A timestamp has an RFC 3339 form if the year on its clock and its offset have one, and every timestamp that
has a form is read off it. The form is a sequence of fields,
and each reader takes exactly its own field from the front of a text, so the whole is read field by
field. Two fields need a word: the fraction lost its trailing zeros, which scaling by the missing
places restores, and the clock of a written stamp shows no leap second.
-/
import FlowWatch.Proofs.Text.Numerals
import FlowWatch.Proofs.Time.Calendar
import FlowWatch.Time.Stamp
import Mathlib.Data.List.TakeWhile

set_option autoImplicit false

namespace FlowWatch

open Text Time

namespace Stamp

/-! ## The fields -/

/-- A reader that succeeds hands its result on. -/
theorem bind_some_eq {α β : Type} {x : Option α} {a : α} {f : α → Option β} {r : Option β}
    (hx : x = some a) (hf : f a = r) : (x >>= f) = r := by
  rw [hx]
  exact hf

theorem digits?_zeroPadded {w n : Nat} (hw : 0 < w) (h : n < 10 ^ w) (rest : List Char) :
    digits? w (zeroPadded w n ++ rest) = some (n, rest) := by
  have hlength := length_zeroPadded hw h
  have hne : zeroPadded w n ≠ [] := List.ne_nil_of_length_pos (by omega)
  have hvalue := value?_of_digits hne fun _ => isDigit_of_mem_zeroPadded
  rw [valueFrom_zeroPadded] at hvalue
  simp only [digits?, List.take_left' hlength, List.drop_left' hlength, hlength, hvalue, BEq.rfl,
    if_true, Option.map_some]

theorem after?_cons (c : Char) (rest : List Char) : after? c (c :: rest) = some rest := by
  simp [after?]

/-- The zeros that trimming has cut off fill the digits up again. -/
theorem fractionDigits_append_zeros {n : Nat} (h : n < 1000000000) :
    fractionDigits n ++ List.replicate (9 - (fractionDigits n).length) '0' = zeroPadded 9 n ∧
      (fractionDigits n).length ≤ 9 := by
  have hlength : (zeroPadded 9 n).length = 9 := length_zeroPadded (by decide) h
  have hsplit := List.takeWhile_append_dropWhile (p := (· == '0')) (l := (zeroPadded 9 n).reverse)
  have hzeros : (zeroPadded 9 n).reverse.takeWhile (· == '0') =
      List.replicate ((zeroPadded 9 n).reverse.takeWhile (· == '0')).length '0' :=
    List.eq_replicate_of_mem fun c hc => by simpa using List.mem_takeWhile_imp hc
  have hback := congrArg List.reverse hsplit
  rw [List.reverse_append, List.reverse_reverse, hzeros, List.reverse_replicate] at hback
  have hsum := congrArg List.length hback
  rw [List.length_append, List.length_replicate, hlength] at hsum
  change (fractionDigits n).length + _ = 9 at hsum
  change fractionDigits n ++ _ = _ at hback
  have hmissing : 9 - (fractionDigits n).length =
      ((zeroPadded 9 n).reverse.takeWhile (· == '0')).length := by omega
  exact ⟨hmissing ▸ hback, by omega⟩

theorem isDigit_of_mem_fractionDigits {n : Nat} {c : Char} (h : c ∈ fractionDigits n) :
    isDigit c = true := by
  rw [fractionDigits, List.mem_reverse] at h
  exact isDigit_of_mem_zeroPadded
    (List.mem_reverse.mp ((List.dropWhile_suffix _).subset h))

theorem fractionValue_fractionDigits {n : Nat} (h : n < 1000000000) :
    fractionValue (fractionDigits n) = n := by
  obtain ⟨hzeros, hle⟩ := fractionDigits_append_zeros h
  have hvalue := congrArg (valueFrom 0) hzeros
  rw [valueFrom_append, valueFrom_zeros, valueFrom_zeroPadded] at hvalue
  rw [fractionValue, List.take_of_length_le hle]
  exact hvalue

theorem fractionDigits_ne_nil {n : Nat} (hn : n ≠ 0) (h : n < 1000000000) :
    fractionDigits n ≠ [] := by
  intro hnil
  have hvalue := fractionValue_fractionDigits h
  rw [hnil] at hvalue
  exact hn hvalue.symm

/-- A fraction is read up to what follows, which is neither a digit nor a point. -/
theorem fraction?_fraction {n : Nat} (h : n < 1000000000) {rest : List Char}
    (hdigit : rest.head?.any isDigit = false) (hpoint : rest.head? ≠ some '.') :
    fraction? (fraction n ++ rest) = some (n, rest) := by
  by_cases hn : n = 0
  · subst hn
    have hfraction : fraction 0 = [] := rfl
    rw [hfraction, List.nil_append, fraction?.eq_def]
    split
    · exact absurd rfl hpoint
    · rfl
  · have hrun : ∀ c ∈ fractionDigits n, isDigit c = true := fun _ => isDigit_of_mem_fractionDigits
    have hempty : (fractionDigits n).isEmpty = false :=
      List.isEmpty_eq_false_iff.mpr (fractionDigits_ne_nil hn h)
    have hfraction : fraction n = '.' :: fractionDigits n := if_neg (by simpa using hn)
    simp only [hfraction, List.cons_append, fraction?, takeWhile_isDigit hrun hdigit,
      dropWhile_isDigit hrun hdigit, hempty, Bool.false_eq_true, if_false,
      fractionValue_fractionDigits h]

/-- Hours and minutes behind a sign. -/
theorem offset?_signed {c : Char} {sign : Int} (hsign : c = '+' ∧ sign = 1 ∨ c = '-' ∧ sign = -1)
    {n : Nat} (h : n < 86400) (hwhole : n % 60 = 0) :
    offset? (c :: (zeroPadded 2 (n / 3600) ++ ':' :: zeroPadded 2 (n / 60 % 60))) =
      some (sign * n, []) := by
  have hhours := digits?_zeroPadded (w := 2) (n := n / 3600) (by decide) (by omega)
    (':' :: zeroPadded 2 (n / 60 % 60))
  have hminutes := digits?_zeroPadded (w := 2) (n := n / 60 % 60) (by decide) (by omega) []
  rw [List.append_nil] at hminutes
  have hbounds : (decide (n / 3600 ≤ 23) && decide (n / 60 % 60 ≤ 59)) = true := by
    simp only [Bool.and_eq_true, decide_eq_true_eq]
    omega
  have hsum : (3600 * (n / 3600 : Nat) + 60 * (n / 60 % 60 : Nat) : Int) = n := by omega
  rcases hsign with ⟨rfl, rfl⟩ | ⟨rfl, rfl⟩
  all_goals
    refine bind_some_eq rfl ?_
    refine bind_some_eq hhours ?_
    refine bind_some_eq (after?_cons ':' _) ?_
    refine bind_some_eq hminutes ?_
    simp only [hbounds, if_true, hsum]

/-- An offset that can be written is read back. -/
theorem offset?_offsetText {offset : Int} (h : offsetHasText offset = true) :
    offset? (offsetText offset) = some (offset, []) := by
  obtain ⟨hday, hwhole⟩ : offset.natAbs < 86400 ∧ offset.natAbs % 60 = 0 := by
    simpa [offsetHasText] using h
  rcases lt_trichotomy offset 0 with hneg | rfl | hpos
  · have htext : offsetText offset = '-' :: (zeroPadded 2 (offset.natAbs / 3600) ++
        ':' :: zeroPadded 2 (offset.natAbs / 60 % 60)) := by
      simp [offsetText, hneg, hneg.ne]
    rw [htext, offset?_signed (.inr ⟨rfl, rfl⟩) hday hwhole]
    have habs : -1 * (offset.natAbs : Int) = offset := by omega
    rw [habs]
  · rfl
  · have htext : offsetText offset = '+' :: (zeroPadded 2 (offset.natAbs / 3600) ++
        ':' :: zeroPadded 2 (offset.natAbs / 60 % 60)) := by
      simp [offsetText, hpos.ne', hpos.not_gt]
    rw [htext, offset?_signed (.inl ⟨rfl, rfl⟩) hday hwhole]
    have habs : 1 * (offset.natAbs : Int) = offset := by omega
    rw [habs]

/-- What follows a time of day is neither a digit nor a point. -/
theorem offsetText_head (offset : Int) :
    (offsetText offset).head?.any isDigit = false ∧ (offsetText offset).head? ≠ some '.' := by
  rw [offsetText]
  split
  · decide
  · split <;> simp [isDigit]

/-! ## The whole timestamp -/

/-- A clock in UTC shows the instant itself. -/
theorem localNanoseconds_of_utc {s : Stamp} (h : s.offset = 0) : s.localNanoseconds = s.instant := by
  rw [localNanoseconds, h, Int.zero_mul, Int.add_zero]

/-- **A timestamp has no written form exactly if its clock shows no year of four digits or its offset has
none.** -/
theorem rfc3339?_eq_none_iff (s : Stamp) :
    s.rfc3339? = none ↔
      ¬((0 ≤ (dateTime s.localNanoseconds).1.year ∧ (dateTime s.localNanoseconds).1.year ≤ 9999) ∧
        offsetHasText s.offset = true) := by
  rw [rfc3339?]
  dsimp only
  rw [ite_eq_right_iff]
  simp only [Bool.and_eq_true, decide_eq_true_eq, reduceCtorEq, imp_false]

/-- An hour ahead of UTC, half an hour before the year 0 has a form; half a minute ahead nothing has. -/
example : (⟨-62167221000000000000, 3600⟩ : Stamp).rfc3339? ≠ none ∧
    (⟨1700000000000000000, 30⟩ : Stamp).rfc3339? = none := by
  decide

/-- An existing date with a time of day before its end is the stamp of its nanosecond count. -/
theorem ofFields?_of_valid {d : Date} {t : DayTime} (hd : d.isValid = true) (hhour : t.hour < 24)
    (hminute : t.minute < 60) (hsecond : t.second < 60) (offset : Int) :
    ofFields? d t offset = some ⟨nanosecondsOf d t - offset * 1000000000, offset⟩ := by
  have hleap : (t.second == 60) = false := by
    rw [beq_eq_false_iff_ne]
    omega
  have hranges : t.hour ≤ 23 ∧ t.minute ≤ 59 ∧ t.second ≤ 60 := by omega
  simp [ofFields?, hd, hranges, hleap]

/-- A date and a time of day are read field by field. -/
theorem ofChars?_dateTimeText {d : Date} {t : DayTime} (hyear : 0 ≤ d.year ∧ d.year ≤ 9999)
    (hd : d.isValid = true) (hhour : t.hour < 24) (hminute : t.minute < 60) (hsecond : t.second < 60)
    (hnano : t.nanosecond < 1000000000) {offset : Int} (hoffset : offsetHasText offset = true) :
    ofChars? (dateTimeText d t ++ offsetText offset) =
      some ⟨nanosecondsOf d t - offset * 1000000000, offset⟩ := by
  have hdate : d.month < 100 ∧ d.day < 100 := by
    have hlength := Date.daysInMonth_le d.year d.month
    simp only [Date.isValid, Bool.and_eq_true, decide_eq_true_eq] at hd
    omega
  obtain ⟨hdigit, hpoint⟩ := offsetText_head offset
  have hseparator : ∀ rest, afterSeparator? ('T' :: rest) = some rest := fun _ => rfl
  have hyearBack : (d.year.toNat : Int) = d.year := Int.toNat_of_nonneg hyear.1
  have hfields : dateTimeText d t ++ offsetText offset =
      zeroPadded 4 d.year.toNat ++ '-' :: (zeroPadded 2 d.month ++ '-' :: (zeroPadded 2 d.day ++
        'T' :: (zeroPadded 2 t.hour ++ ':' :: (zeroPadded 2 t.minute ++
          ':' :: (zeroPadded 2 t.second ++ (fraction t.nanosecond ++ offsetText offset)))))) := by
    simp only [dateTimeText, List.append_assoc, List.cons_append]
  rw [hfields]
  refine bind_some_eq (digits?_zeroPadded (by decide) (by omega) _) ?year
  refine bind_some_eq (after?_cons '-' _) ?_
  refine bind_some_eq (digits?_zeroPadded (by decide) (by omega) _) ?month
  refine bind_some_eq (after?_cons '-' _) ?_
  refine bind_some_eq (digits?_zeroPadded (by decide) (by omega) _) ?day
  refine bind_some_eq (hseparator _) ?_
  refine bind_some_eq (digits?_zeroPadded (by decide) (by omega) _) ?hour
  refine bind_some_eq (after?_cons ':' _) ?_
  refine bind_some_eq (digits?_zeroPadded (by decide) (by omega) _) ?minute
  refine bind_some_eq (after?_cons ':' _) ?_
  refine bind_some_eq (digits?_zeroPadded (by decide) (by omega) _) ?second
  refine bind_some_eq (fraction?_fraction hnano hdigit hpoint) ?nanosecond
  refine bind_some_eq (offset?_offsetText hoffset) ?offset
  change ofFields? ⟨d.year.toNat, d.month, d.day⟩ t offset = _
  rw [hyearBack]
  exact ofFields?_of_valid hd hhour hminute hsecond offset

/-- A timestamp is read off its written form. -/
theorem ofRfc3339?_of_rfc3339? {s : Stamp} {text : String} (h : s.rfc3339? = some text) :
    ofRfc3339? text = some s := by
  obtain ⟨hhour, hminute, hsecond, hnano⟩ := dateTime_clock s.localNanoseconds
  simp only [rfc3339?] at h
  split at h
  · next hform =>
    simp only [Bool.and_eq_true, decide_eq_true_eq] at hform
    obtain ⟨hyear, hoffset⟩ := hform
    rw [← Option.some.inj h, ofRfc3339?, String.toList_ofList,
      ofChars?_dateTimeText hyear (isValid_dateTime _) hhour hminute hsecond hnano hoffset,
      nanosecondsOf_dateTime, localNanoseconds, Int.add_sub_cancel]
  · cases h

end Stamp

end FlowWatch
