/-
Timestamps as text.

A `Stamp` is an instant together with the offset from UTC it is written in; two stamps are read
off the same instant at different offsets. The written form is RFC 3339: a four-digit year, so
that only local years 0 to 9999 have one, a fraction without trailing zeros and no fraction at all
on a whole second, and an offset of hours and minutes, with Z for zero. Reading is more liberal: any ASCII character between date
and time, either case of Z, any number of fraction digits, and a leap second, which is read as the
last nanosecond before it.

`shown` is for people. It falls back to a plain date and time where RFC 3339 has no form.
-/
import FlowWatch.Text.Decimal
import FlowWatch.Time.Instant
import FlowWatch.Time.Calendar

set_option autoImplicit false

namespace FlowWatch

open Text Time

/-- An instant and the offset from UTC, in seconds, at which its clock is read. -/
structure Stamp where
  instant : Instant
  offset : Int
  deriving DecidableEq, Repr

namespace Stamp

/-- The instant read at UTC. -/
def utc (t : Instant) : Stamp := ⟨t, 0⟩

/-- What a clock at the stamp's offset shows, as nanoseconds from 1970-01-01T00:00:00. -/
def localNanoseconds (s : Stamp) : Int := s.instant + s.offset * 1000000000

/-! ## Writing -/

/-- Nine fraction digits without the zeros at the right end. -/
def fractionDigits (nanosecond : Nat) : List Char :=
  ((zeroPadded 9 nanosecond).reverse.dropWhile (· == '0')).reverse

/-- A fraction of a second with its point, or nothing. -/
def fraction (nanosecond : Nat) : List Char :=
  if nanosecond == 0 then [] else '.' :: fractionDigits nanosecond

/-- Whether an offset has a written form: it is of less than a day, in whole minutes. -/
def offsetHasText (offset : Int) : Bool := offset.natAbs < 86400 && offset.natAbs % 60 == 0

/-- An offset as a sign, hours and minutes. -/
def offsetText (offset : Int) : List Char :=
  if offset == 0 then ['Z']
  else
    (if offset < 0 then '-' else '+') ::
      zeroPadded 2 (offset.natAbs / 3600) ++ ':' :: zeroPadded 2 (offset.natAbs / 60 % 60)

/-- Date and time in the order of RFC 3339; the year has at least four digits. -/
def dateTimeText (d : Date) (t : DayTime) : List Char :=
  zeroPadded 4 d.year.toNat ++ '-' :: zeroPadded 2 d.month ++ '-' :: zeroPadded 2 d.day ++
    'T' :: zeroPadded 2 t.hour ++ ':' :: zeroPadded 2 t.minute ++ ':' :: zeroPadded 2 t.second ++
    fraction t.nanosecond

/-- The RFC 3339 form, if the local year has four digits and the offset can be written. -/
def rfc3339? (s : Stamp) : Option String :=
  let (d, t) := dateTime s.localNanoseconds
  if 0 ≤ d.year && d.year ≤ 9999 && offsetHasText s.offset then
    some (String.ofList (dateTimeText d t ++ offsetText s.offset))
  else none

/-! ## Reading -/

/-- The value of exactly `n` digits at the head, and what follows them. -/
def digits? (n : Nat) (cs : List Char) : Option (Nat × List Char) :=
  let head := cs.take n
  if head.length == n then (value? head).map fun v => (v, cs.drop n) else none

/-- What follows the character `c`. -/
def after? (c : Char) : List Char → Option (List Char)
  | d :: rest => if d == c then some rest else none
  | [] => none

/-- What follows one character between date and time, which may even be a digit. -/
def afterSeparator? : List Char → Option (List Char)
  | c :: rest => if 0x80 ≤ c.toNat then none else some rest
  | [] => none

/-- The nanoseconds written by fraction digits; digits past the ninth are cut off. -/
def fractionValue (ds : List Char) : Nat :=
  valueFrom 0 (ds.take 9) * Nat.pow 10 (9 - (ds.take 9).length)

/-- An optional fraction in nanoseconds. -/
def fraction? : List Char → Option (Nat × List Char)
  | '.' :: rest =>
    let ds := rest.takeWhile isDigit
    if ds.isEmpty then none else some (fractionValue ds, rest.dropWhile isDigit)
  | cs => some (0, cs)

/-- An offset in seconds, of less than a day. -/
def offset? : List Char → Option (Int × List Char)
  | 'Z' :: rest => some (0, rest)
  | 'z' :: rest => some (0, rest)
  | c :: rest => do
    let sign : Int ← if c == '+' then some 1 else if c == '-' then some (-1) else none
    let (h, rest) ← digits? 2 rest
    let rest ← after? ':' rest
    let (m, rest) ← digits? 2 rest
    if h ≤ 23 && m ≤ 59 then some (sign * (3600 * h + 60 * m), rest) else none
  | [] => none

/-- Whether the instant is the last nanosecond of the last minute of a month, in UTC. -/
def endsMonth (t : Instant) : Bool :=
  let (d, c) := dateTime t
  c == ⟨23, 59, 59, 999999999⟩ && d.day == Date.daysInMonth d.year d.month

/-- The stamp of an existing date and time; a sixtieth second is a leap second, and those exist
only at the end of a month. -/
def ofFields? (d : Date) (t : DayTime) (offset : Int) : Option Stamp :=
  if d.isValid && t.hour ≤ 23 && t.minute ≤ 59 && t.second ≤ 60 then
    -- The sixtieth second has no count of its own.
    let leap := t.second == 60
    let clock : DayTime := if leap then ⟨t.hour, t.minute, 59, 999999999⟩ else t
    let instant := nanosecondsOf d clock - offset * 1000000000
    if leap && !endsMonth instant then none else some ⟨instant, offset⟩
  else none

/-- Reads an RFC 3339 timestamp that fills the whole text. -/
def ofChars? (cs : List Char) : Option Stamp := do
  let (year, cs) ← digits? 4 cs
  let cs ← after? '-' cs
  let (month, cs) ← digits? 2 cs
  let cs ← after? '-' cs
  let (day, cs) ← digits? 2 cs
  let cs ← afterSeparator? cs
  let (hour, cs) ← digits? 2 cs
  let cs ← after? ':' cs
  let (minute, cs) ← digits? 2 cs
  let cs ← after? ':' cs
  let (second, cs) ← digits? 2 cs
  let (nanosecond, cs) ← fraction? cs
  let (offset, cs) ← offset? cs
  if cs.isEmpty then
    ofFields? ⟨year, month, day⟩ ⟨hour, minute, second, nanosecond⟩ offset
  else none

/-- Reads an RFC 3339 timestamp. -/
def ofRfc3339? (s : String) : Option Stamp := ofChars? s.toList

end Stamp

namespace Instant

/-- The RFC 3339 form in UTC, if there is one. -/
def rfc3339? (t : Instant) : Option String := (Stamp.utc t).rfc3339?

/-- The year for people: at least four digits after the sign. -/
def yearText (year : Int) : List Char :=
  if year < 0 then '-' :: zeroPadded 4 year.natAbs
  else if year > 9999 then '+' :: decimal year.toNat
  else zeroPadded 4 year.toNat

/-- A plain date and time in UTC, for every instant. -/
def plainText (t : Instant) : String :=
  let (d, c) := dateTime t
  String.ofList
    (yearText d.year ++ '-' :: zeroPadded 2 d.month ++ '-' :: zeroPadded 2 d.day ++
      ' ' :: decimal c.hour ++ ':' :: zeroPadded 2 c.minute ++ ':' :: zeroPadded 2 c.second ++
      '.' :: (if c.nanosecond == 0 then ['0'] else Stamp.fractionDigits c.nanosecond) ++
      " +00:00:00".toList)

/-- The instant for people: its RFC 3339 form, else the plain one. -/
def shown (t : Instant) : String := (rfc3339? t).getD (plainText t)

end Instant

end FlowWatch
