/-
Numerals read back.

A numeral is read by the digit, so every fact here goes by the recursion of `numeral`: the last
digit is split off, and what stands before it is a shorter numeral. From that a decimal numeral is a
run of digits with the value it was written from, padded or not, and no two numbers have one numeral
in any base up to sixteen.
-/
import FlowWatch.Text.Decimal
import Mathlib.Algebra.Group.Nat.Defs
import Mathlib.Data.List.Basic

set_option autoImplicit false

namespace FlowWatch.Text

/-! ## Digits -/

theorem digitChar_toNat_low : ∀ n < 10, (digitChar n).toNat = 48 + n := by decide

theorem hexDigit?_digitChar : ∀ n < 16, hexDigit? (digitChar n) = some n := by decide

theorem digitChar_injective {m n : Nat} (hm : m < 16) (hn : n < 16)
    (h : digitChar m = digitChar n) : m = n := by
  have hread := congrArg hexDigit? h
  rw [hexDigit?_digitChar m hm, hexDigit?_digitChar n hn] at hread
  exact Option.some.inj hread

theorem isDigit_digitChar {n : Nat} (h : n < 10) : isDigit (digitChar n) = true := by
  have htoNat := digitChar_toNat_low n h
  simp only [isDigit, htoNat, Bool.and_eq_true, decide_eq_true_eq]
  omega

theorem digitValue_digitChar {n : Nat} (h : n < 10) : digitValue (digitChar n) = n := by
  rw [digitValue, digitChar_toNat_low n h, Nat.add_sub_cancel_left]

/-! ## Numerals -/

theorem numeral_of_lt {b n : Nat} (h : n < b + 2) : numeral b n = [digitChar n] := by
  rw [numeral, if_pos h]

theorem numeral_of_le {b n : Nat} (h : b + 2 ≤ n) :
    numeral b n = numeral b (n / (b + 2)) ++ [digitChar (n % (b + 2))] := by
  rw [numeral, if_neg (Nat.not_lt.mpr h)]

theorem numeral_ne_nil (b n : Nat) : numeral b n ≠ [] := by
  rw [numeral]
  split <;> simp

/-- What holds of every digit of the base holds of every character of a numeral. -/
theorem forall_mem_numeral {P : Char → Prop} {b : Nat} (hdigit : ∀ d < b + 2, P (digitChar d))
    (n : Nat) : ∀ c ∈ numeral b n, P c := by
  fun_induction numeral b n with
  | case1 n hn =>
    intro c hc
    rw [List.mem_singleton.mp hc]
    exact hdigit n hn
  | case2 n hn ih =>
    intro c hc
    rcases List.mem_append.mp hc with hfront | hlast
    · exact ih c hfront
    · rw [List.mem_singleton.mp hlast]
      exact hdigit _ (Nat.mod_lt _ (by omega))

/-- Numbers have different numerals in a base up to sixteen. -/
theorem numeral_injective {b : Nat} (hb : b + 2 ≤ 16) :
    Function.Injective (numeral b) := by
  intro m
  fun_induction numeral b m with
  | case1 m hm =>
    intro n h
    by_cases hn : n < b + 2
    · rw [numeral_of_lt hn, List.singleton_inj] at h
      exact digitChar_injective (by omega) (by omega) h
    · -- A single digit is no longer numeral.
      rw [numeral_of_le (Nat.not_lt.mp hn)] at h
      have hlength := congrArg List.length h
      have hpos := List.length_pos_iff.mpr (numeral_ne_nil b (n / (b + 2)))
      simp only [List.length_append, List.length_singleton] at hlength
      omega
  | case2 m hm ih =>
    intro n h
    by_cases hn : n < b + 2
    · rw [numeral_of_lt hn] at h
      have hlength := congrArg List.length h
      have hpos := List.length_pos_iff.mpr (numeral_ne_nil b (m / (b + 2)))
      simp only [List.length_append, List.length_singleton] at hlength
      omega
    · rw [numeral_of_le (Nat.not_lt.mp hn)] at h
      obtain ⟨hfront, hlast⟩ := List.append_inj' h rfl
      have hdiv : m / (b + 2) = n / (b + 2) := ih hfront
      have hmod : m % (b + 2) = n % (b + 2) := by
        have hm' := Nat.mod_lt m (show 0 < b + 2 by omega)
        have hn' := Nat.mod_lt n (show 0 < b + 2 by omega)
        exact digitChar_injective (by omega) (by omega) (List.singleton_inj.mp hlast)
      rw [← Nat.div_add_mod m (b + 2), ← Nat.div_add_mod n (b + 2), hdiv, hmod]

theorem decimal_injective : Function.Injective decimal := numeral_injective (by decide)

theorem hexadecimal_injective : Function.Injective hexadecimal := numeral_injective (by decide)

theorem decimal_ne_nil (n : Nat) : decimal n ≠ [] := numeral_ne_nil 8 n

theorem hexadecimal_ne_nil (n : Nat) : hexadecimal n ≠ [] := numeral_ne_nil 14 n

theorem isDigit_of_mem_decimal {n : Nat} {c : Char} (h : c ∈ decimal n) : isDigit c = true :=
  forall_mem_numeral (P := fun c => isDigit c = true) (fun _ hd => isDigit_digitChar hd) n c h

/-- Only zero has a numeral that starts with a zero. -/
theorem decimal_head_ne_zero {n : Nat} (hn : n ≠ 0) : (decimal n).head? ≠ some '0' := by
  unfold decimal
  fun_induction numeral 8 n with
  | case1 n hlt =>
    intro h
    have hchar : digitChar n = digitChar 0 := Option.some.inj h
    exact hn (digitChar_injective (by omega) (by decide) hchar)
  | case2 n hlt ih =>
    rw [List.head?_append_of_ne_nil _ (numeral_ne_nil _ _)]
    exact ih (by omega)

/-! ## Values -/

theorem valueFrom_append (acc : Nat) (cs ds : List Char) :
    valueFrom acc (cs ++ ds) = valueFrom (valueFrom acc cs) ds := List.foldl_append

theorem valueFrom_zeros (acc k : Nat) :
    valueFrom acc (List.replicate k '0') = acc * 10 ^ k := by
  induction k generalizing acc with
  | zero => simp [valueFrom]
  | succ k ih =>
    rw [List.replicate_succ, valueFrom, List.foldl_cons]
    change valueFrom (10 * acc + 0) (List.replicate k '0') = _
    rw [ih, Nat.add_zero, Nat.pow_succ, Nat.mul_comm 10 acc, Nat.mul_assoc, Nat.mul_comm 10]

theorem valueFrom_decimal (n : Nat) : valueFrom 0 (decimal n) = n := by
  unfold decimal
  fun_induction numeral 8 n with
  | case1 n hn => simp [valueFrom, digitValue_digitChar hn]
  | case2 n hn ih =>
    rw [valueFrom_append, ih, valueFrom, List.foldl_cons, List.foldl_nil,
      digitValue_digitChar (Nat.mod_lt _ (by decide))]
    omega

/-! ## Padded numerals -/

theorem length_decimal_le {n w : Nat} (hw : 0 < w) (h : n < 10 ^ w) : (decimal n).length ≤ w := by
  unfold decimal
  fun_induction numeral 8 n generalizing w with
  | case1 n hn => exact hw
  | case2 n hn ih =>
    obtain ⟨w, rfl⟩ := Nat.exists_eq_succ_of_ne_zero (by omega : w ≠ 0)
    have hfront : n / 10 < 10 ^ w := by
      rw [Nat.pow_succ] at h
      omega
    have hpos : 0 < w := by
      rcases Nat.eq_zero_or_pos w with rfl | hpos
      · omega
      · exact hpos
    have hlength := ih hpos hfront
    simp only [List.length_append, List.length_singleton]
    omega

theorem length_zeroPadded {n w : Nat} (hw : 0 < w) (h : n < 10 ^ w) :
    (zeroPadded w n).length = w := by
  have hle := length_decimal_le hw h
  rw [zeroPadded, padLeft, List.length_append, List.length_replicate]
  omega

theorem isDigit_of_mem_zeroPadded {n w : Nat} {c : Char} (h : c ∈ zeroPadded w n) :
    isDigit c = true := by
  rcases List.mem_append.mp h with hzero | hdigit
  · rw [List.eq_of_mem_replicate hzero]
    rfl
  · exact isDigit_of_mem_decimal hdigit

theorem valueFrom_zeroPadded (n w : Nat) : valueFrom 0 (zeroPadded w n) = n := by
  rw [zeroPadded, padLeft, valueFrom_append, valueFrom_zeros, Nat.zero_mul, valueFrom_decimal]

theorem value?_of_digits {cs : List Char} (hne : cs ≠ []) (hdigits : ∀ c ∈ cs, isDigit c = true) :
    value? cs = some (valueFrom 0 cs) := by
  have hempty : cs.isEmpty = false := List.isEmpty_eq_false_iff.mpr hne
  have hall : cs.all isDigit = true := List.all_eq_true.mpr hdigits
  simp [value?, hempty, hall]

/-! ## Runs of digits -/

section Runs

variable {cs rest : List Char}

/-- A run of digits ends where no digit follows. -/
theorem takeWhile_isDigit (hcs : ∀ c ∈ cs, isDigit c = true)
    (hrest : rest.head?.any isDigit = false) : (cs ++ rest).takeWhile isDigit = cs := by
  rw [List.takeWhile_append_of_pos hcs]
  cases rest with
  | nil => simp
  | cons c rest =>
    have hc : ¬ isDigit c = true := by simpa using hrest
    rw [List.takeWhile_cons_of_neg hc, List.append_nil]

theorem dropWhile_isDigit (hcs : ∀ c ∈ cs, isDigit c = true)
    (hrest : rest.head?.any isDigit = false) : (cs ++ rest).dropWhile isDigit = rest := by
  rw [List.dropWhile_append_of_pos hcs]
  cases rest with
  | nil => rfl
  | cons c rest =>
    have hc : ¬ isDigit c = true := by simpa using hrest
    exact List.dropWhile_cons_of_neg hc

end Runs

end FlowWatch.Text
