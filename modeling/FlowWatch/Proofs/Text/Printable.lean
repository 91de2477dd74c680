/-
Texts of printable ASCII characters.

Numerals, padded columns, the names of endpoints and the texts of timestamps are made of printable ASCII
characters, whatever they are of. So none of them holds a line feed, and a line that is put together from
them is one line.
-/
import FlowWatch.Proofs.Flow.Names
import FlowWatch.Proofs.Text.Numerals
import FlowWatch.Time.Stamp

set_option autoImplicit false

namespace FlowWatch

open Text Time

namespace Text

/-- The ASCII characters from the blank to the tilde. -/
def isPrintable (c : Char) : Bool := 0x20 ≤ c.toNat && c.toNat ≤ 0x7E

/-- Every digit, in either case, is printable. -/
theorem isPrintable_of_hexDigit? {c : Char} (h : hexDigit? c ≠ none) : isPrintable c = true := by
  unfold hexDigit? at h
  dsimp only at h
  simp only [isPrintable, Bool.and_eq_true, decide_eq_true_eq]
  split_ifs at h with hdigit hlower hupper
  all_goals simp only [Bool.and_eq_true, decide_eq_true_eq] at *
  · omega
  · omega
  · omega
  · exact absurd rfl h

theorem all_isPrintable_numeral {b : Nat} (hb : b + 2 ≤ 16) (n : Nat) :
    (numeral b n).all isPrintable = true := by
  refine List.all_eq_true.mpr (forall_mem_numeral (fun d hd => ?_) n)
  refine isPrintable_of_hexDigit? ?_
  rw [hexDigit?_digitChar d (by omega)]
  exact Option.some_ne_none d

@[simp] theorem all_isPrintable_decimal (n : Nat) : (decimal n).all isPrintable = true :=
  all_isPrintable_numeral (by decide) n

@[simp] theorem all_isPrintable_hexadecimal (n : Nat) : (hexadecimal n).all isPrintable = true :=
  all_isPrintable_numeral (by decide) n

theorem all_replicate {p : Char → Bool} {c : Char} (hc : p c = true) (n : Nat) :
    (List.replicate n c).all p = true :=
  List.all_eq_true.mpr fun _ h => List.eq_of_mem_replicate h ▸ hc

@[simp] theorem all_isPrintable_padRight (w : Nat) (cs : List Char) :
    (padRight w cs).all isPrintable = cs.all isPrintable := by
  rw [padRight, List.all_append, all_replicate (by decide), Bool.and_true]

theorem all_isPrintable_padLeft {c : Char} (hc : isPrintable c = true) (w : Nat) (cs : List Char) :
    (padLeft c w cs).all isPrintable = cs.all isPrintable := by
  rw [padLeft, List.all_append, all_replicate hc, Bool.true_and]

@[simp] theorem all_isPrintable_zeroPadded (w n : Nat) :
    (zeroPadded w n).all isPrintable = true :=
  (all_isPrintable_padLeft (by decide) w _).trans (all_isPrintable_decimal n)

theorem all_isPrintable_hexByte (b : UInt8) : (hexByte b).all isPrintable = true := by
  have hdigit : ∀ n < 16, isPrintable (digitChar n) = true := by decide
  have hb := b.toNat_lt
  simp only [hexByte, List.all_cons, List.all_nil, Bool.and_true, Bool.and_eq_true]
  exact ⟨hdigit _ (by omega), hdigit _ (by omega)⟩

theorem all_isPrintable_intercalate {sep : List Char} {xs : List (List Char)}
    (hsep : sep.all isPrintable = true) (h : ∀ x ∈ xs, x.all isPrintable = true) :
    (sep.intercalate xs).all isPrintable = true := by
  refine List.all_eq_true.mpr fun c hc => ?_
  rcases IPv6.mem_intercalate hc with hc | ⟨x, hx, hc⟩
  · exact List.all_eq_true.mp hsep c hc
  · exact List.all_eq_true.mp (h x hx) c hc

end Text

/-- The text of an endpoint is made of digits and four marks. -/
theorem Address.all_isPrintable_endpoint (a : Address) (port : UInt16) :
    (a.endpoint port).all isPrintable = true := by
  refine List.all_eq_true.mpr fun c hc => ?_
  have hmarks : ∀ m ∈ ([':', '.', '[', ']'] : List Char), isPrintable m = true :=
    List.all_eq_true.mp (by decide)
  by_cases hmark : c ∈ ([':', '.', '[', ']'] : List Char)
  · exact hmarks c hmark
  · exact isPrintable_of_hexDigit? fun hnone => a.not_mem_endpoint hnone hmark port hc

/-! ## Timestamps -/

namespace Stamp

theorem all_isPrintable_fractionDigits (n : Nat) :
    (fractionDigits n).all isPrintable = true := by
  refine List.all_eq_true.mpr fun c hc => List.all_eq_true.mp (all_isPrintable_zeroPadded 9 n) c ?_
  exact List.mem_reverse.mp ((List.dropWhile_suffix _).subset (List.mem_reverse.mp hc))

theorem all_isPrintable_fraction (n : Nat) : (fraction n).all isPrintable = true := by
  unfold fraction
  split_ifs
  · rfl
  · rw [List.all_cons, all_isPrintable_fractionDigits]
    rfl

theorem all_isPrintable_offsetText (offset : Int) :
    (offsetText offset).all isPrintable = true := by
  unfold offsetText
  split_ifs <;> simp [isPrintable]

theorem all_isPrintable_dateTimeText (d : Date) (t : DayTime) :
    (dateTimeText d t).all isPrintable = true := by
  simp [dateTimeText, all_isPrintable_fraction, isPrintable]

theorem all_isPrintable_rfc3339? {s : Stamp} {text : String} (h : s.rfc3339? = some text) :
    text.toList.all isPrintable = true := by
  simp only [rfc3339?] at h
  split_ifs at h
  rw [← Option.some.inj h, String.toList_ofList, List.all_append, all_isPrintable_dateTimeText,
    all_isPrintable_offsetText]
  rfl

end Stamp

namespace Instant

theorem all_isPrintable_yearText (year : Int) : (yearText year).all isPrintable = true := by
  unfold yearText
  split_ifs <;> simp [isPrintable]

theorem all_isPrintable_plainText (t : Instant) :
    (plainText t).toList.all isPrintable = true := by
  have hfraction : ∀ n : Nat, ((if n == 0 then ['0'] else Stamp.fractionDigits n) : List Char).all
      isPrintable = true := by
    intro n
    split_ifs
    · decide
    · exact Stamp.all_isPrintable_fractionDigits n
  simp only [plainText, String.toList_ofList, List.all_append, List.all_cons,
    all_isPrintable_yearText, all_isPrintable_zeroPadded, all_isPrintable_decimal, hfraction]
  decide

/-- An instant is shown in printable characters, in whichever of the two forms. -/
theorem all_isPrintable_shown (t : Instant) : (shown t).toList.all isPrintable = true := by
  unfold shown
  rcases h : t.rfc3339? with _ | text
  · exact all_isPrintable_plainText t
  · exact Stamp.all_isPrintable_rfc3339? h

end Instant

end FlowWatch
