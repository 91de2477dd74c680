/-
Dates and day numbers are the same thing.

`ofDayNumber` splits a day number into a 400-year cycle, a century, a four-year group and a year, each
by a division whose remainder the next one takes up. `Split` names the parts with their bounds; the
two results follow from it by linear arithmetic: the date has its number back, and it exists in the
calendar. The only parts that reach past their own bound are the last day of a cycle and the last day
of a group, and those are the leap days.
-/
import FlowWatch.Time.Calendar
import FlowWatch.Time.Instant
import Mathlib.Tactic.IntervalCases

set_option autoImplicit false

namespace FlowWatch

namespace Time

/-! ## The parts of a day number -/

/-- A day of a year that begins in March, with the parts of the year's number and the month. -/
structure Split where
  cycle : Int
  century : Int
  group : Int
  ofGroup : Int
  inYear : Int
  month : Int

namespace Split

/-- The parts of a day number counted from a first of March, the start of a cycle. -/
def ofDays (z : Int) : Split :=
  let inCycle := z % 146097
  let century := min (inCycle / 36524) 3
  let inCentury := inCycle - 36524 * century
  let inGroup := inCentury % 1461
  let ofGroup := min (inGroup / 365) 3
  let inYear := inGroup - 365 * ofGroup
  ⟨z / 146097, century, inCentury / 1461, ofGroup, inYear, (5 * inYear + 2) / 153⟩

/-- The year in which the March year of the parts begins. -/
def year (s : Split) : Int := 400 * s.cycle + 100 * s.century + 4 * s.group + s.ofGroup

/-- The parts are in their ranges. The last day of a March year exists only if it ends a group, and
then only if that is no short century. -/
structure Bounded (s : Split) : Prop where
  century : 0 ≤ s.century ∧ s.century ≤ 3
  group : 0 ≤ s.group ∧ s.group ≤ 24
  ofGroup : 0 ≤ s.ofGroup ∧ s.ofGroup ≤ 3
  inYear : 0 ≤ s.inYear ∧ s.inYear ≤ 365
  month : s.month = (5 * s.inYear + 2) / 153
  leap : s.inYear = 365 → s.ofGroup = 3 ∧ (s.group = 24 → s.century = 3)

theorem bounded_ofDays (z : Int) : (ofDays z).Bounded := by
  have hcycle : 0 ≤ z % 146097 ∧ z % 146097 < 146097 := by omega
  constructor <;> simp only [ofDays] <;> omega

/-- The parts add up to the day number. -/
theorem days_ofDays (z : Int) :
    146097 * (ofDays z).cycle + 36524 * (ofDays z).century + 1461 * (ofDays z).group +
      365 * (ofDays z).ofGroup + (ofDays z).inYear = z := by
  simp only [ofDays]
  omega

variable {s : Split}

/-- The leap days before a March year, by the three divisions of its number. -/
theorem Bounded.leapDays (h : s.Bounded) :
    s.year / 4 - s.year / 100 + s.year / 400 = 97 * s.cycle + 24 * s.century + s.group := by
  obtain ⟨hcentury, hgroup, hofGroup, -, -, -⟩ := h
  simp only [year]
  omega

theorem Bounded.month_range (h : s.Bounded) : 0 ≤ s.month ∧ s.month ≤ 11 := by
  have hmonth := h.month
  have hinYear := h.inYear
  omega

end Split

namespace Date

/-! ## The number of a date -/

section

variable {s : Split}

/-- The civil date of the parts of a day number. -/
def ofSplit (s : Split) : Date where
  year := if s.month < 10 then s.year else s.year + 1
  month := (if s.month < 10 then s.month + 3 else s.month - 9).toNat
  day := (s.inYear - (153 * s.month + 2) / 5 + 1).toNat

/-- January and February belong to the March year before their own. -/
theorem marchYear_ofSplit (h : s.Bounded) :
    (if (ofSplit s).month ≤ 2 then (ofSplit s).year - 1 else (ofSplit s).year) = s.year := by
  have hmonth := h.month_range
  by_cases hm : s.month < 10
  · simp only [ofSplit, if_pos hm]
    omega
  · simp only [ofSplit, if_neg hm]
    omega

theorem marchMonth_ofSplit (h : s.Bounded) : marchMonth (ofSplit s).month = s.month := by
  have hmonth := h.month_range
  by_cases hm : s.month < 10
  · simp only [marchMonth, ofSplit, if_pos hm]
    omega
  · simp only [marchMonth, ofSplit, if_neg hm]
    omega

theorem day_ofSplit (h : s.Bounded) :
    ((ofSplit s).day : Int) = s.inYear - (153 * s.month + 2) / 5 + 1 := by
  have hinYear := h.inYear
  have hmonth := h.month
  simp only [ofSplit]
  omega

/-- The number of a civil date is what its parts add up to. -/
theorem dayNumber_ofSplit (h : s.Bounded) :
    (ofSplit s).dayNumber = 146097 * s.cycle + 36524 * s.century + 1461 * s.group +
      365 * s.ofGroup + s.inYear - epochOffset := by
  have hleap := h.leapDays
  have hday := day_ofSplit h
  have hyear : s.year = 400 * s.cycle + 100 * s.century + 4 * s.group + s.ofGroup := rfl
  simp only [dayNumber, marchYear_ofSplit h, marchMonth_ofSplit h, hday]
  omega

end

theorem ofDayNumber_eq (n : Int) :
    ofDayNumber n = ofSplit (Split.ofDays (n + epochOffset)) := rfl

/-- The date of a numbered day has that number. -/
theorem dayNumber_ofDayNumber (n : Int) : (ofDayNumber n).dayNumber = n := by
  rw [ofDayNumber_eq, dayNumber_ofSplit (Split.bounded_ofDays _), Split.days_ofDays]
  omega

/-! ## Numbered days exist -/

/-- Only the length of February depends on the year; the others are the steps of the linear formula. -/
theorem daysInMonth_of_month_lt (year : Int) {m : Int} (h : 0 ≤ m) (hm : m < 11) :
    (daysInMonth year (if m < 10 then m + 3 else m - 9).toNat : Int) =
      (153 * (m + 1) + 2) / 5 - (153 * m + 2) / 5 := by
  interval_cases m <;> rfl

theorem daysInMonth_february (year : Int) :
    daysInMonth year 2 = if isLeap year then 29 else 28 := rfl

theorem daysInMonth_le (year : Int) (month : Nat) : daysInMonth year month ≤ 31 := by
  rw [daysInMonth]
  repeat' split
  all_goals omega

/-- The year after the last one of a group is a leap year, unless it ends a short century. -/
theorem isLeap_ofGroup {s : Split} (h : s.Bounded) (hlast : s.ofGroup = 3)
    (hcentury : s.group = 24 → s.century = 3) : isLeap (s.year + 1) = true := by
  have hgroup := h.group
  have hrange := h.century
  simp only [isLeap, Split.year, Bool.and_eq_true, Bool.or_eq_true, beq_iff_eq, bne_iff_ne]
  omega

theorem day_le_daysInMonth {s : Split} (h : s.Bounded) :
    (ofSplit s).day ≤ daysInMonth (ofSplit s).year (ofSplit s).month := by
  have hday := day_ofSplit h
  have hmonth := h.month
  have hrange := h.month_range
  have hinYear := h.inYear
  by_cases hm : s.month < 11
  · have hlength := daysInMonth_of_month_lt (ofSplit s).year hrange.1 hm
    change (daysInMonth (ofSplit s).year (ofSplit s).month : Int) = _ at hlength
    omega
  · have hfebruary : (ofSplit s).month = 2 := by
      simp only [ofSplit]
      omega
    have hyear : (ofSplit s).year = s.year + 1 := if_neg (by omega)
    rw [hfebruary, daysInMonth_february, hyear]
    by_cases hleap : s.inYear = 365
    · rw [if_pos (isLeap_ofGroup h (h.leap hleap).1 (h.leap hleap).2)]
      omega
    · split <;> omega

theorem isValid_ofSplit {s : Split} (h : s.Bounded) : (ofSplit s).isValid = true := by
  have hday := day_ofSplit h
  have hle := day_le_daysInMonth h
  have hmonth := h.month
  have hinYear := h.inYear
  have hmonths : 1 ≤ (ofSplit s).month ∧ (ofSplit s).month ≤ 12 := by
    simp only [ofSplit]
    omega
  simp only [isValid, Bool.and_eq_true, decide_eq_true_eq]
  omega

/-- The years up to ±9999 are a range of day numbers. -/
theorem year_ofSplit_iff {s : Split} (h : s.Bounded) :
    -9999 ≤ (ofSplit s).year ∧ (ofSplit s).year ≤ 9999 ↔
      -4371587 ≤ (ofSplit s).dayNumber ∧ (ofSplit s).dayNumber ≤ 2932896 := by
  have hnumber := dayNumber_ofSplit h
  obtain ⟨hcentury, hgroup, hofGroup, hinYear, hmonth, hleap⟩ := h
  simp only [hnumber, epochOffset]
  by_cases hm : s.month < 10
  · simp only [ofSplit, if_pos hm, Split.year]
    omega
  · simp only [ofSplit, if_neg hm, Split.year]
    omega

/-- The years from 0 on are those of the days from the first of January 0 on. -/
theorem year_ofSplit_nonneg_iff {s : Split} (h : s.Bounded) :
    0 ≤ (ofSplit s).year ↔ -719528 ≤ (ofSplit s).dayNumber := by
  have hnumber := dayNumber_ofSplit h
  obtain ⟨hcentury, hgroup, hofGroup, hinYear, hmonth, hleap⟩ := h
  simp only [hnumber, epochOffset]
  by_cases hm : s.month < 10
  · simp only [ofSplit, if_pos hm, Split.year]
    omega
  · simp only [ofSplit, if_neg hm, Split.year]
    omega

theorem isValid_ofDayNumber (n : Int) : (ofDayNumber n).isValid = true := by
  rw [ofDayNumber_eq]
  exact isValid_ofSplit (Split.bounded_ofDays _)

end Date

/-! ## The time of day -/

namespace DayTime

theorem ofSinceMidnight_bounds {n : Nat} (h : (n : Int) < dayLength) :
    (ofSinceMidnight n).hour < 24 ∧ (ofSinceMidnight n).minute < 60 ∧
      (ofSinceMidnight n).second < 60 ∧ (ofSinceMidnight n).nanosecond < 1000000000 := by
  simp only [dayLength] at h
  simp only [ofSinceMidnight]
  omega

theorem sinceMidnight_ofSinceMidnight (n : Nat) : (ofSinceMidnight n).sinceMidnight = n := by
  simp only [ofSinceMidnight, sinceMidnight]
  omega

end DayTime

theorem dateTime_fst (n : Int) : (dateTime n).1 = Date.ofDayNumber (n / DayTime.dayLength) := rfl

theorem dateTime_snd (n : Int) :
    (dateTime n).2 = DayTime.ofSinceMidnight (n % DayTime.dayLength).toNat := rfl

theorem isValid_dateTime (n : Int) : (dateTime n).1.isValid = true := by
  rw [dateTime_fst]
  exact Date.isValid_ofDayNumber _

theorem dateTime_clock (n : Int) :
    (dateTime n).2.hour < 24 ∧ (dateTime n).2.minute < 60 ∧ (dateTime n).2.second < 60 ∧
      (dateTime n).2.nanosecond < 1000000000 := by
  have hpos : 0 < DayTime.dayLength := by simp [DayTime.dayLength]
  rw [dateTime_snd]
  apply DayTime.ofSinceMidnight_bounds
  rw [Int.toNat_of_nonneg (Int.emod_nonneg _ hpos.ne')]
  exact Int.emod_lt_of_pos _ hpos

/-- The date and the time of day of a nanosecond count have that count. -/
theorem nanosecondsOf_dateTime (n : Int) :
    nanosecondsOf (dateTime n).1 (dateTime n).2 = n := by
  have hpos : 0 ≤ n % DayTime.dayLength := by
    apply Int.emod_nonneg
    simp [DayTime.dayLength]
  rw [nanosecondsOf, dateTime_fst, dateTime_snd, Date.dayNumber_ofDayNumber,
    DayTime.sinceMidnight_ofSinceMidnight, Int.toNat_of_nonneg hpos, Int.mul_comm,
    Int.mul_ediv_add_emod]

/-- **The instants are those of the years -9999 to 9999.** -/
theorem isRepresentable_iff_year (t : Int) : Instant.isRepresentable t = true ↔
    -9999 ≤ (dateTime t).1.year ∧ (dateTime t).1.year ≤ 9999 := by
  rw [dateTime_fst, Date.ofDayNumber_eq, Date.year_ofSplit_iff (Split.bounded_ofDays _),
    ← Date.ofDayNumber_eq, Date.dayNumber_ofDayNumber]
  unfold Instant.isRepresentable DayTime.dayLength
  rw [Bool.and_eq_true, decide_eq_true_iff, decide_eq_true_iff]
  show (-377705116800000000000 : Int) ≤ t ∧ t ≤ (253402300799999999999 : Int) ↔ _
  omega

end Time

namespace Instant

open Time

/-- The first instant of the year 0, 0000-01-01T00:00:00Z. -/
def yearZero : Instant := -62167219200000000000

theorem yearZero_le_iff (t : Instant) : yearZero ≤ t ↔ 0 ≤ (dateTime t).1.year := by
  rw [dateTime_fst, Date.ofDayNumber_eq, Date.year_ofSplit_nonneg_iff (Split.bounded_ofDays _),
    ← Date.ofDayNumber_eq, Date.dayNumber_ofDayNumber]
  unfold yearZero DayTime.dayLength
  show (-62167219200000000000 : Int) ≤ t ↔ _
  omega

end Instant

end FlowWatch
