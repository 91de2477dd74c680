/-
Numerals as character lists.

`decimal` writes the shortest base-ten numeral of a natural number, `value?` reads a run of digits
back, and the padding functions bring a numeral or a text to a fixed column width. Everything is
stated on character lists, where append and length are at hand; strings are made at the edge.
-/

set_option autoImplicit false

namespace FlowWatch.Text

/-! ## Writing -/

/-- The digit character of `n` in bases up to sixteen, in lower case. -/
def digitChar (n : Nat) : Char :=
  if n < 10 then Char.ofNat (48 + n) else Char.ofNat (87 + n)

/-- The numeral of `n` in base `b + 2`, most significant digit first; zero has one digit. -/
def numeral (b n : Nat) : List Char :=
  if n < b + 2 then [digitChar n] else numeral b (n / (b + 2)) ++ [digitChar (n % (b + 2))]
termination_by n
decreasing_by exact Nat.div_lt_self (by omega) (by omega)

/-- The decimal numeral of `n`. -/
def decimal (n : Nat) : List Char := numeral 8 n

/-- The lower-case hexadecimal numeral of `n`, without a leading zero. -/
def hexadecimal (n : Nat) : List Char := numeral 14 n

/-- The decimal numeral of an integer; only a negative one carries a sign. -/
def signedDecimal : Int → List Char
  | .ofNat n => decimal n
  | .negSucc n => '-' :: decimal (n + 1)

/-- `cs` filled up on the left with `fill` to at least `width` characters. -/
def padLeft (fill : Char) (width : Nat) (cs : List Char) : List Char :=
  List.replicate (width - cs.length) fill ++ cs

/-- `cs` filled up on the right with blanks to at least `width` characters. -/
def padRight (width : Nat) (cs : List Char) : List Char :=
  cs ++ List.replicate (width - cs.length) ' '

/-- The decimal numeral of `n` with leading zeros up to `width` digits. -/
def zeroPadded (width n : Nat) : List Char := padLeft '0' width (decimal n)

/-! ## Reading -/

/-- The ASCII decimal digits. -/
def isDigit (c : Char) : Bool := 48 ≤ c.toNat && c.toNat ≤ 57

/-- The value of a decimal digit. -/
def digitValue (c : Char) : Nat := c.toNat - 48

/-- The number a run of digits stands for, read on top of `acc`; characters are taken to be
digits. -/
def valueFrom (acc : Nat) (cs : List Char) : Nat :=
  cs.foldl (fun v c => 10 * v + digitValue c) acc

/-- The number written by a non-empty run of decimal digits. -/
def value? (cs : List Char) : Option Nat :=
  if cs.isEmpty || !cs.all isDigit then none else some (valueFrom 0 cs)

/-- The number a run of digits stands for, or `bound` if that is less. However long the run is, no
number on the way is much greater than the bound. -/
def valueUpTo (bound : Nat) (cs : List Char) : Nat :=
  cs.foldl (fun v c => min bound (10 * v + digitValue c)) 0

theorem foldl_min_valueFrom (bound acc : Nat) (cs : List Char) :
    cs.foldl (fun v c => min bound (10 * v + digitValue c)) (min bound acc) =
      min bound (valueFrom acc cs) := by
  induction cs generalizing acc with
  | nil => rfl
  | cons c cs ih =>
    have step : min bound (10 * min bound acc + digitValue c) =
        min bound (10 * acc + digitValue c) := by omega
    simp only [List.foldl_cons, step, ih, valueFrom]

/-- Cutting off at every step is cutting off at the end. -/
theorem valueUpTo_eq (bound : Nat) (cs : List Char) :
    valueUpTo bound cs = min bound (valueFrom 0 cs) := by
  have h := foldl_min_valueFrom bound 0 cs
  rwa [Nat.min_zero] at h

/-- The value of a hexadecimal digit in either case. -/
def hexDigit? (c : Char) : Option Nat :=
  let n := c.toNat
  if 48 ≤ n && n ≤ 57 then some (n - 48)
  else if 97 ≤ n && n ≤ 102 then some (n - 87)
  else if 65 ≤ n && n ≤ 70 then some (n - 55)
  else none

/-! ## Bytes in hexadecimal -/

/-- Two hexadecimal digits for one byte. -/
def hexByte (b : UInt8) : List Char := [digitChar (b.toNat / 16), digitChar (b.toNat % 16)]

/-- The bytes in hexadecimal, two digits each and nothing between them. -/
def hexBytes (bs : List UInt8) : List Char := bs.flatMap hexByte

end FlowWatch.Text
