/-
Counts of units as instants.

A capture counts time in units of which any number may make a second, and an interface may be off by any
number of seconds. The instant of a count is found in two parts, whole seconds and a fraction that is scaled
to nanoseconds, and both are cut off by a division. Cutting twice is cutting once: the parts add up to the
floor of the whole count in nanoseconds. The parts are computed in signed 128-bit words; `Wide` is such a
word, and its operations give nothing where their result has no place in one. Whatever the count, the units
and the offset are, no operation on the way gives nothing; and the clocks that a capture describes have
units, and numbers of such sizes.
-/
import FlowWatch.Capture.Block
import FlowWatch.Proofs.Time.Calendar

set_option autoImplicit false

namespace FlowWatch.Capture

/-! ## Signed 128-bit words -/

/-- A signed 128-bit word. -/
structure Wide where
  value : Int
  fits : -2 ^ 127 ≤ value ∧ value < 2 ^ 127
  deriving DecidableEq, Repr

namespace Wide

/-- The word of an integer, if there is one. -/
def of? (n : Int) : Option Wide := if h : -2 ^ 127 ≤ n ∧ n < 2 ^ 127 then some ⟨n, h⟩ else none

/-- An unsigned 64-bit word. -/
def ofUInt64 (n : UInt64) : Wide := ⟨n.toNat, by have := n.toNat_lt; omega⟩

/-- A signed 64-bit word. -/
def ofInt64 (n : Int64) : Wide := ⟨n.toInt, by have := n.le_toInt; have := n.toInt_lt; omega⟩

/-- Nanoseconds per second. -/
def nanoseconds : Wide := ⟨1000000000, by decide⟩

/-- The sum, if it is a word. -/
def add? (x y : Wide) : Option Wide := of? (x.value + y.value)

/-- The product, if it is a word. -/
def mul? (x y : Wide) : Option Wide := of? (x.value * y.value)

/-- The quotient, cut toward zero, if there is one and it is a word. -/
def div? (x y : Wide) : Option Wide :=
  if y.value = 0 then none else of? (x.value.tdiv y.value)

/-- The remainder that belongs to the quotient. -/
def rem? (x y : Wide) : Option Wide := (x.div? y).bind fun _ => of? (x.value.tmod y.value)

theorem exists_of? {n : Int} (h : -2 ^ 127 ≤ n ∧ n < 2 ^ 127) : ∃ x, of? n = some x ∧ x.value = n :=
  ⟨⟨n, h⟩, dif_pos h, rfl⟩

theorem exists_of?_nat {n : Nat} (h : (n : Int) < 2 ^ 127) : ∃ x, of? n = some x ∧ x.value = n :=
  exists_of? ⟨by omega, h⟩

variable {x y : Wide} {m n : Nat}

/-- Dividing a number that is not negative by a positive one gives a word, and so does the remainder. -/
theorem exists_div? (hx : x.value = m) (hy : y.value = n) (hn : 0 < n) :
    ∃ z, x.div? y = some z ∧ z.value = (m / n : Nat) ∧ 0 ≤ z.value ∧ z.value ≤ m := by
  have hle : ((m / n : Nat) : Int) ≤ m := Int.ofNat_le.mpr (Nat.div_le_self m n)
  obtain ⟨z, hz, hvalue⟩ := exists_of?_nat (hle.trans_lt (hx ▸ x.fits.2))
  refine ⟨z, ?_, hvalue, hvalue ▸ Int.natCast_nonneg _, hvalue ▸ hle⟩
  rw [div?, hx, hy, if_neg (by omega), ← Int.ofNat_tdiv, hz]

theorem exists_rem? (hx : x.value = m) (hy : y.value = n) (hn : 0 < n) :
    ∃ z, x.rem? y = some z ∧ z.value = (m % n : Nat) ∧ 0 ≤ z.value ∧ z.value < n := by
  obtain ⟨q, hq, -⟩ := exists_div? hx hy hn
  have hlt : ((m % n : Nat) : Int) < n := Int.ofNat_lt.mpr (Nat.mod_lt m hn)
  obtain ⟨z, hz, hvalue⟩ := exists_of?_nat (hlt.trans (hy ▸ y.fits.2))
  refine ⟨z, ?_, hvalue, hvalue ▸ Int.natCast_nonneg _, hvalue ▸ hlt⟩
  rw [rem?, hq, Option.bind_some, hx, hy, ← Int.ofNat_tmod, hz]

end Wide

/-- The instant of a count of units, found in 128-bit words. There is no result if one of the operations has
none. -/
def unitsTimeWide? (units : UInt64) (offset : Int64) (high low : UInt32) : Option (Option Instant) :=
  if units = 0 then some none
  else do
    let count := Wide.ofUInt64 (high.toUInt64 <<< 32 ||| low.toUInt64)
    let perSecond := Wide.ofUInt64 units
    let whole ← count.div? perSecond
    let rest ← count.rem? perSecond
    let scaled ← rest.mul? .nanoseconds
    let fraction ← scaled.div? perSecond
    let shifted ← whole.add? (.ofInt64 offset)
    let seconds ← shifted.mul? .nanoseconds
    let total ← seconds.add? fraction
    return instant? total.value

/-! ## Clocks of captures -/

/-- A resolution makes at least one unit a second, and no more than 64 bits hold. -/
theorem unitsPerSecond?_bounds {resolution : UInt8} {n : Nat} (h : unitsPerSecond? resolution = some n) :
    0 < n ∧ n < 2 ^ 64 := by
  unfold unitsPerSecond? at h
  generalize resolution.toNat % 128 = exponent at h
  dsimp only at h
  split_ifs at h with hbinary hfits hfits <;> cases h
  · exact ⟨Nat.two_pow_pos exponent, Nat.pow_lt_pow_right (by decide) hfits⟩
  · have hle : 10 ^ exponent ≤ 10 ^ 19 := Nat.pow_le_pow_right (by decide) (by omega)
    exact ⟨Nat.pow_pos (by decide), hle.trans_lt (by decide)⟩

/-- Whichever option says the offset last, it is a signed 64-bit word. -/
theorem Block.exists_offset_eq (opts : List (Nat × List UInt8)) :
    ∃ word : Int64, offset opts = word.toInt := by
  unfold offset
  refine List.foldlRecOn (motive := fun r => ∃ word : Int64, r = word.toInt) opts _ ⟨0, rfl⟩ ?_
  rintro r ⟨word, rfl⟩ o -
  split
  · exact ⟨.ofInt _, Int64.toInt_ofInt.symm⟩
  · exact ⟨word, rfl⟩

/-- The clock of an interface is made of two words, whatever its description says, and it has units. -/
theorem Block.exists_clock_eq (link : Frame.LinkType) (resolution : UInt8)
    (opts : List (Nat × List UInt8)) :
    ∃ (units : UInt64) (shift : Int64), 0 < units.toNat ∧
      clock link resolution (offset opts) = ⟨link, units.toNat, shift.toInt⟩ := by
  have hbounds : 0 < (unitsPerSecond? resolution).getD defaultUnits ∧
      (unitsPerSecond? resolution).getD defaultUnits < 2 ^ 64 := by
    cases h : unitsPerSecond? resolution with
    | none => decide
    | some n => exact unitsPerSecond?_bounds h
  obtain ⟨hpos, hlt⟩ := hbounds
  have hunits := UInt64.toNat_ofNat_of_lt' hlt
  obtain ⟨shift, hshift⟩ := exists_offset_eq opts
  exact ⟨.ofNat _, shift, hunits.symm ▸ hpos, by rw [clock, hshift, hunits]⟩

/-! ## The count and its seconds -/

/-- The count of units in the two halves of a time stamp. -/
def count (high low : UInt32) : Nat := high.toNat * 4294967296 + low.toNat

/-- The halves do not overlap, so putting them side by side adds them. -/
theorem toNat_halves (high low : UInt32) :
    (high.toUInt64 <<< 32 ||| low.toUInt64).toNat = count high low := by
  have hhigh := high.toNat_lt
  have hlow := low.toNat_lt
  have hshift : (high.toUInt64 <<< 32).toNat = 2 ^ 32 * high.toNat := by
    have hplaces : UInt64.toNat 32 % 64 = 32 := rfl
    rw [UInt64.toNat_shiftLeft, UInt32.toNat_toUInt64, hplaces, Nat.shiftLeft_eq, Nat.mul_comm]
    exact Nat.mod_eq_of_lt (by omega)
  rw [UInt64.toNat_or, hshift, UInt32.toNat_toUInt64, ← Nat.two_pow_add_eq_or_of_lt hlow, count]
  omega

theorem count_lt (high low : UInt32) : count high low < 2 ^ 64 := by
  rw [← toNat_halves]
  exact UInt64.toNat_lt _

/-- The whole seconds of a count and the fraction that the rest of it makes, both cut off, add up to the
whole count in nanoseconds, cut off once. -/
theorem seconds_add_fraction (units perSecond : Nat) (h : 0 < perSecond) :
    units / perSecond * 1000000000 + units % perSecond * 1000000000 / perSecond =
      units * 1000000000 / perSecond := by
  calc units / perSecond * 1000000000 + units % perSecond * 1000000000 / perSecond
      = (perSecond * (units / perSecond * 1000000000) + units % perSecond * 1000000000) / perSecond :=
        (Nat.mul_add_div h _ _).symm
    _ = (perSecond * (units / perSecond) + units % perSecond) * 1000000000 / perSecond := by
        rw [Nat.add_mul, Nat.mul_assoc]
    _ = units * 1000000000 / perSecond := by rw [Nat.div_add_mod]

/-! ## The instant of a count -/

section

variable (link : Frame.LinkType) (units : UInt64) (offset : Int64) (high low : UInt32)

/-- **Every operation has a result in 128 bits**, and the last one is the instant. -/
theorem unitsTimeWide?_eq_some :
    unitsTimeWide? units offset high low =
      some (unitsTime ⟨link, units.toNat, offset.toInt⟩ high.toNat low.toNat) := by
  by_cases hunits : units = 0
  · simp [unitsTimeWide?, unitsTime, hunits]
  have hcount : (Wide.ofUInt64 (high.toUInt64 <<< 32 ||| low.toUInt64)).value = count high low :=
    congrArg Nat.cast (toNat_halves high low)
  have hcountLt := count_lt high low
  have hperSecond : (Wide.ofUInt64 units).value = units.toNat := rfl
  have hpos : 0 < units.toNat := Nat.pos_of_ne_zero fun h => hunits (UInt64.toNat_inj.mp h)
  have hunitsLt := units.toNat_lt
  have hoffset := offset.le_toInt
  have hoffsetLt := offset.toInt_lt
  obtain ⟨whole, hwhole, hwholeValue, hwholeNonneg, hwholeLe⟩ :=
    Wide.exists_div? hcount hperSecond hpos
  obtain ⟨rest, hrest, hrestValue, hrestNonneg, hrestLt⟩ := Wide.exists_rem? hcount hperSecond hpos
  -- The rest is less than the units, so times a thousand million it has 94 bits at most.
  obtain ⟨scaled, hscaled, hscaledValue⟩ := Wide.exists_of? (n := rest.value * 1000000000) (by omega)
  obtain ⟨fraction, hfraction, hfractionValue, hfractionNonneg, hfractionLe⟩ :=
    Wide.exists_div? (m := count high low % units.toNat * 1000000000)
      (by rw [hscaledValue, hrestValue]; rfl) hperSecond hpos
  -- The shifted seconds have 65 bits and a sign, and their nanoseconds 95.
  obtain ⟨shifted, hshifted, hshiftedValue⟩ :=
    Wide.exists_of? (n := whole.value + offset.toInt) (by omega)
  obtain ⟨seconds, hseconds, hsecondsValue⟩ :=
    Wide.exists_of? (n := shifted.value * 1000000000) (by omega)
  obtain ⟨total, htotal, htotalValue⟩ :=
    Wide.exists_of? (n := seconds.value + fraction.value) (by omega)
  have hword : unitsTimeWide? units offset high low = some (instant? total.value) := by
    simp only [unitsTimeWide?, if_neg hunits, Wide.mul?, Wide.add?, Option.bind_eq_bind,
      Option.bind_some, hwhole, hrest, hscaled, hfraction, hshifted, hseconds, htotal, Wide.ofInt64,
      Wide.nanoseconds, Option.pure_def]
  have htotalEq : total.value = (whole.value + offset.toInt) * 1000000000 + fraction.value := by
    rw [htotalValue, hsecondsValue, hshiftedValue]
  rw [hword, htotalEq, hwholeValue, hfractionValue, unitsTime, if_neg (by simpa using hpos.ne')]
  rfl

end

/-- The parts of a count add up to the floor of the whole of it in nanoseconds. -/
theorem unitsTime_of_pos {clock : Clock} (h : 0 < clock.unitsPerSecond) (high low : Nat) :
    unitsTime clock high low =
      instant? (((high * 4294967296 + low) * 1000000000 / clock.unitsPerSecond : Nat) +
        clock.offsetSeconds * 1000000000) := by
  rw [unitsTime, if_neg (by simpa using h.ne'), ← seconds_add_fraction _ _ h]
  refine congrArg instant? ?_
  push_cast
  rw [Int.add_mul, Int.add_right_comm]

/-- Before 1970 too the fraction is cut off towards the past: five thirds of a second, two seconds early. -/
example : unitsTime ⟨Frame.linkEthernet, 3, -2⟩ 0 5 = some (-333333334) := by decide

/-- Only an instant comes out, and only of a clock that has units. -/
theorem unitsTime_eq_some_iff {clock : Clock} {high low : Nat} {t : Instant} :
    unitsTime clock high low = some t ↔
      0 < clock.unitsPerSecond ∧
        t = ((high * 4294967296 + low) * 1000000000 / clock.unitsPerSecond : Nat) +
          clock.offsetSeconds * 1000000000 ∧
        Instant.isRepresentable t = true := by
  rcases Nat.eq_zero_or_pos clock.unitsPerSecond with h | h
  · simp [unitsTime, h]
  · rw [unitsTime_of_pos h, instant?, Option.ite_none_right_eq_some]
    constructor
    · rintro ⟨hrepresentable, hvalue⟩
      cases hvalue
      exact ⟨h, rfl, hrepresentable⟩
    · rintro ⟨-, rfl, hrepresentable⟩
      exact ⟨hrepresentable, rfl⟩

/-- More units are no earlier instant. -/
theorem unitsTime_mono {clock : Clock} {high low high' low' : Nat} {t t' : Instant}
    (hunits : high * 4294967296 + low ≤ high' * 4294967296 + low')
    (ht : unitsTime clock high low = some t) (ht' : unitsTime clock high' low' = some t') : t ≤ t' := by
  obtain ⟨-, rfl, -⟩ := unitsTime_eq_some_iff.mp ht
  obtain ⟨-, rfl, -⟩ := unitsTime_eq_some_iff.mp ht'
  have hquotient := Nat.div_le_div_right (c := clock.unitsPerSecond) (Nat.mul_le_mul_right 1000000000 hunits)
  exact Int.add_le_add_right (Int.ofNat_le.mpr hquotient) _

/-- **Time stamps are exact.** Let a clock have any 64-bit number of units per second and any signed 64-bit
offset. For every time stamp each 128-bit operation has a result, and together they find the instant; the
instant is the floor of the count in nanoseconds, shifted by the offset, and it is there exactly if the clock
has units and its date is of the years -9999 to 9999. So later counts are no earlier instants. -/
theorem unitsTime_exact (link : Frame.LinkType) (units : UInt64) (offset : Int64) (high low : UInt32) :
    unitsTimeWide? units offset high low =
        some (unitsTime ⟨link, units.toNat, offset.toInt⟩ high.toNat low.toNat) ∧
      (∀ t, unitsTime ⟨link, units.toNat, offset.toInt⟩ high.toNat low.toNat = some t ↔
        0 < units.toNat ∧
          t = (count high low * 1000000000 / units.toNat : Nat) + offset.toInt * 1000000000 ∧
          -9999 ≤ (Time.dateTime t).1.year ∧ (Time.dateTime t).1.year ≤ 9999) ∧
      ∀ high' low' t t', count high low ≤ count high' low' →
        unitsTime ⟨link, units.toNat, offset.toInt⟩ high.toNat low.toNat = some t →
        unitsTime ⟨link, units.toNat, offset.toInt⟩ high'.toNat low'.toNat = some t' → t ≤ t' :=
  ⟨unitsTimeWide?_eq_some link units offset high low,
    fun t => by rw [unitsTime_eq_some_iff, Time.isRepresentable_iff_year, count],
    fun _ _ _ _ hcount ht ht' => unitsTime_mono hcount ht ht'⟩

end FlowWatch.Capture
