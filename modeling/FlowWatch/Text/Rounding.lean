/-
Rounding to the nearest, a tie going to the even neighbour.

`roundDiv` rounds a quotient. On it stand the two roundings of the library: a natural number to a
significand of 53 bits, which is what double precision holds, and a quotient to two decimal
places.
-/
import FlowWatch.Text.Decimal

set_option autoImplicit false

namespace FlowWatch.Text

/-- `num / den` rounded to the nearest natural number, and to the even one halfway. -/
def roundDiv (num den : Nat) : Nat :=
  let q := num / den
  let twice := 2 * (num % den)
  if twice > den || (twice == den && q % 2 == 1) then q + 1 else q

/-- The nearest number with a significand of 53 bits. -/
def roundToDouble (n : Nat) : Nat :=
  let unit := Nat.pow 2 (n.log2 - 52)
  roundDiv n unit * unit

/-- `num / den` with two decimal places. -/
def twoPlaces (num den : Nat) : List Char :=
  let h := roundDiv (100 * num) den
  decimal (h / 100) ++ '.' :: zeroPadded 2 (h % 100)

end FlowWatch.Text
