import ClambHook.License.Evaluate

/-!
# The calendar of the licenses

The conversions between day numbers and dates as `license.c` computes them: its divisions cut
towards zero and every operation has the type that C gives it.  A value that does not fit in its
type wraps.

`Evaluate.lean` counts with the exact calendar.  The two are compared here: they agree on every date
whose year is an `int` with some room below it (`daysFromCivil_eq`, `civilFromDays_eq`), and so do
the additions of months (`addMonthsClamped_eq`).
-/

namespace ClambHook.License.Calendar

open CivilDate (Date Falls)

/-! ## Integer types -/

/-- A value as an `int`. -/
def int (x : Int) : Int := (x + 2147483648) % 4294967296 - 2147483648

/-- A value as an `unsigned`. -/
def unsigned (x : Int) : Int := x % 4294967296

/-- A value as an `int64_t`. -/
def int64 (x : Int) : Int :=
  (x + 9223372036854775808) % 18446744073709551616 - 9223372036854775808

variable {x : Int}

theorem int_eq (h : -2147483648 ≤ x ∧ x ≤ 2147483647) : int x = x := by
  rw [int]
  omega

theorem unsigned_eq (h : 0 ≤ x ∧ x < 4294967296) : unsigned x = x :=
  Int.emod_eq_of_lt h.1 h.2

theorem int64_eq (h : -9223372036854775808 ≤ x ∧ x ≤ 9223372036854775807) :
    int64 x = x := by
  rw [int64]
  omega

/-! ## Dates -/

/-- The quotient, rounded down. -/
def floorDiv (numerator denominator : Int) : Int :=
  let quotient := numerator.tdiv denominator
  let remainder := numerator.tmod denominator
  if remainder ≠ 0 ∧ (decide (remainder < 0) != decide (denominator < 0)) = true then
    int64 (quotient - 1)
  else quotient

def daysFromCivil (year month day : Int) : Int :=
  let year := int (year - if month ≤ 2 then 1 else 0)
  let era := (if 0 ≤ year then year else int (year - 399)).tdiv 400
  let yearOfEra := unsigned (int (year - int (era * 400)))
  let adjustedMonth := if 2 < month then unsigned (month - 3) else unsigned (month + 9)
  let dayOfYear := unsigned (unsigned (153 * adjustedMonth + 2) / 5 + day - 1)
  let dayOfEra := unsigned (yearOfEra * 365 + yearOfEra / 4 - yearOfEra / 100 + dayOfYear)
  int64 (era * 146097 + dayOfEra - 719468)

def civilFromDays (days : Int) : Date :=
  let days := int64 (days + 719468)
  let era := (if 0 ≤ days then days else int64 (days - 146096)).tdiv 146097
  let dayOfEra := unsigned (int64 (days - era * 146097))
  let yearOfEra :=
    unsigned (dayOfEra - dayOfEra / 1460 + dayOfEra / 36524 - dayOfEra / 146096) / 365
  let year := int (int yearOfEra + int (int era * 400))
  let dayOfYear :=
    unsigned (dayOfEra - unsigned (365 * yearOfEra + yearOfEra / 4 - yearOfEra / 100))
  let monthPrime := unsigned (5 * dayOfYear + 2) / 153
  let day := unsigned (dayOfYear - unsigned (153 * monthPrime + 2) / 5 + 1)
  let monthValue := int (int monthPrime + if monthPrime < 10 then 3 else -9)
  let month := unsigned monthValue
  ⟨int (year + if month ≤ 2 then 1 else 0), month, day⟩

def isLeapYear (year : Int) : Bool :=
  year.tmod 4 == 0 && (year.tmod 100 != 0 || year.tmod 400 == 0)

def daysInMonth (year month : Int) : Int :=
  let days : List Int := [31, 28, 31, 30, 31, 30, 31, 31, 30, 31, 30, 31]
  if month = 2 ∧ isLeapYear year then 29
  else if 1 ≤ month ∧ month ≤ 12 then days.getD (month - 1).toNat 0
  else 0

/-- Midnight UTC. -/
def utcDate (year month day : Int) : Timestamp :=
  .ofInt (daysFromCivil year month day) * .ofInt nanosecondsPerDay

/-- The same time of the day some months later, with the day cut to the length of the month. -/
def addMonthsClamped (timestamp : Timestamp) (months : Int) : Timestamp :=
  let days := floorDiv timestamp.toInt nanosecondsPerDay
  let nanosecondsOfDay := timestamp - .ofInt days * .ofInt nanosecondsPerDay
  let date := civilFromDays days
  let total := int (int (int date.month - 1) + months)
  let quotient := int (date.year + total.tdiv 12)
  let remainder := total.tmod 12
  let year := if remainder < 0 then int (quotient - 1) else quotient
  let monthZero := if remainder < 0 then int (remainder + 12) else remainder
  let month := unsigned (unsigned monthZero + 1)
  let lastDay := daysInMonth year month
  let day := if lastDay < date.day then lastDay else date.day
  utcDate year month day + nanosecondsOfDay

/-! ## The exact calendar -/

/-- A division that cuts towards zero rounds down when a negative number is made smaller first. -/
theorem tdiv_sub_eq {a b : Int} (hb : 0 < b) :
    (if 0 ≤ a then a else a - (b - 1)).tdiv b = a / b := by
  split
  case isTrue ha => exact Int.tdiv_eq_ediv_of_nonneg ha
  next ha =>
  have hrest := Int.emod_add_mul_ediv a b
  have hnonneg := Int.emod_nonneg a hb.ne'
  have hlt := Int.emod_lt_of_pos a hb
  have hneg : a - (b - 1) = -(b - 1 - a) := by ring
  have hquotient : (b - 1 - a) / b = -(a / b) := by
    refine (Int.ediv_emod_unique (r := b - 1 - a % b) hb).2 ⟨?_, by omega, by omega⟩ |>.1
    rw [mul_neg]
    omega
  rw [hneg, Int.neg_tdiv, Int.tdiv_eq_ediv_of_nonneg (by omega), hquotient, neg_neg]

theorem floorDiv_eq {numerator denominator : Int} (hpos : 0 < denominator)
    (h : -9223372036854775808 ≤ numerator ∧ numerator ≤ 9223372036854775807) :
    floorDiv numerator denominator = numerator / denominator := by
  have hlt := Int.emod_lt_of_pos numerator hpos
  have hnonneg := Int.emod_nonneg numerator hpos.ne'
  have hdenominator : decide (denominator < 0) = false := decide_eq_false (not_lt.2 hpos.le)
  simp only [floorDiv, hdenominator, Int.tdiv_eq_ediv, Int.tmod_eq_emod,
    Int.sign_eq_one_of_pos hpos, Bool.bne_false, decide_eq_true_eq]
  by_cases hcut : 0 ≤ numerator ∨ denominator ∣ numerator
  · rw [if_pos hcut, if_pos hcut, if_neg (by omega), add_zero]
  have hneg : numerator < 0 := by omega
  have hlower : numerator ≤ numerator / denominator := by
    rw [Int.le_ediv_iff_mul_le hpos]
    nlinarith
  have hupper : numerator / denominator < 0 := Int.ediv_neg_of_neg_of_pos hneg hpos
  rw [if_neg hcut, if_neg hcut, if_pos (by omega), add_sub_cancel_right, int64_eq (by omega)]

/-- The year of the date, and the one in front of it, are far enough from the smallest `int`. -/
def Fits (date : Date) : Prop :=
  -2147483248 ≤ date.year ∧ date.year ≤ 2147483647

theorem daysFromCivil_eq {date : Date} (hvalid : date.Valid) (hfits : Fits date) :
    daysFromCivil date.year date.month date.day = CivilDate.daysFromCivil date := by
  obtain ⟨year, month, day⟩ := date
  have hmonth := hvalid.month
  have hday := hvalid.day
  have hlength := CivilDate.daysInMonth_bounds year month
  simp only [Fits] at hmonth hday hfits
  have hyear : int (year - if month ≤ 2 then 1 else 0) = if month ≤ 2 then year - 1 else year := by
    split
    · exact int_eq (by omega)
    · rw [sub_zero, int_eq (by omega)]
  simp only [daysFromCivil, CivilDate.daysFromCivil, hyear]
  obtain ⟨y, hy⟩ : ∃ y, y = if month ≤ 2 then year - 1 else year := ⟨_, rfl⟩
  have hrange : -2147483249 ≤ y ∧ y ≤ 2147483647 := by
    rw [hy]
    split <;> omega
  have hera : (if 0 ≤ y then y else int (y - 399)).tdiv 400 = y / 400 := by
    rw [← tdiv_sub_eq (by decide : (0 : Int) < 400)]
    split
    · rfl
    · rw [int_eq (by omega)]
      rfl
  have hyoe : unsigned (int (y - int (y / 400 * 400))) = y - y / 400 * 400 := by
    rw [unsigned, int, int]
    omega
  rw [← hy, hera, hyoe]
  have hadjusted : (if 2 < month then unsigned (month - 3) else unsigned (month + 9)) =
      if 2 < month then month - 3 else month + 9 := by
    split
    · exact unsigned_eq (by omega)
    · exact unsigned_eq (by omega)
  rw [hadjusted]
  obtain ⟨m, hm⟩ : ∃ m, m = if 2 < month then month - 3 else month + 9 := ⟨_, rfl⟩
  have hmonths : 0 ≤ m ∧ m ≤ 11 := by
    rw [hm]
    split <;> omega
  rw [← hm, unsigned_eq (x := 153 * m + 2) (by omega),
    unsigned_eq (x := (153 * m + 2) / 5 + day - 1) (by omega), unsigned_eq (by omega),
    int64_eq (by omega)]

theorem civilFromDays_eq {days : Int} (hfits : Fits (CivilDate.civilFromDays days)) :
    civilFromDays days = CivilDate.civilFromDays days := by
  have hyear := CivilDate.year_civilFromDays days
  rw [Fits] at hfits
  obtain ⟨era, hera⟩ : ∃ era, era = (days + 719468) / 146097 := ⟨_, rfl⟩
  rw [← hera] at hyear
  obtain ⟨doe, hdoe⟩ : ∃ doe, doe = days + 719468 - era * 146097 := ⟨_, rfl⟩
  have hdays : int64 (days + 719468) = days + 719468 := int64_eq (by omega)
  have hquotient : (if 0 ≤ days + 719468 then days + 719468 else
      int64 (days + 719468 - 146096)).tdiv 146097 = era := by
    rw [hera, ← tdiv_sub_eq (by decide : (0 : Int) < 146097), int64_eq (by omega)]
    rfl
  have hrange : 0 ≤ doe ∧ doe < 146097 := by omega
  have hremainder : unsigned (int64 doe) = doe := by
    rw [int64_eq (by omega), unsigned_eq (by omega)]
  have hera' : -5368710 ≤ era ∧ era ≤ 5368710 := by omega
  obtain ⟨yoe, hyoe⟩ : ∃ yoe, yoe = CivilDate.leapless doe / 365 := ⟨_, rfl⟩
  obtain ⟨hyoe400, hdoy⟩ := CivilDate.dayOfYear_bounds hrange hyoe
  obtain ⟨doy, hdoyEq⟩ : ∃ doy, doy = doe - (365 * yoe + yoe / 4 - yoe / 100) := ⟨_, rfl⟩
  obtain ⟨month, hmonth⟩ : ∃ month, month = (5 * doy + 2) / 153 := ⟨_, rfl⟩
  rw [← hdoyEq] at hdoy
  have hleapless : unsigned (doe - doe / 1460 + doe / 36524 - doe / 146096) / 365 = yoe := by
    rw [hyoe, CivilDate.leapless, unsigned_eq (by omega)]
  have hdayOfYear : unsigned (doe - unsigned (365 * yoe + yoe / 4 - yoe / 100)) = doy := by
    rw [unsigned_eq (x := 365 * yoe + _ - _) (by omega), ← hdoyEq, unsigned_eq (by omega)]
  have hmonthPrime : unsigned (5 * doy + 2) / 153 = month := by
    rw [hmonth, unsigned_eq (by omega)]
  have hyearOfEra : (doe - doe / 1460 + doe / 36524 - doe / 146096) / 365 = yoe := hyoe.symm
  have hmonths : 0 ≤ month ∧ month ≤ 11 := by omega
  have hmonthOf : unsigned (int (int month + if month < 10 then 3 else -9)) =
      if month < 10 then month + 3 else month - 9 := by
    rw [unsigned, int, int]
    split <;> omega
  have hday : unsigned (doy - unsigned (153 * month + 2) / 5 + 1) =
      doy - (153 * month + 2) / 5 + 1 := by
    rw [unsigned_eq (x := 153 * month + 2) (by omega), unsigned_eq (by omega)]
  simp only [CivilDate.civilFromDays, ← hera, ← hdoe, hyearOfEra, ← hdoyEq, ← hmonth] at hfits ⊢
  simp only [civilFromDays, hdays, hquotient, ← hdoe, hremainder, hleapless, hdayOfYear,
    hmonthPrime, hmonthOf, hday]
  congr 1
  -- The product may wrap for an era that begins below the smallest `int`; the sum wraps it back.
  generalize (if month < 10 then month + 3 else month - 9) = m at hfits ⊢
  rw [int, int, int, int, int]
  split at hfits
  · omega
  · omega

theorem isLeapYear_eq (year : Int) : isLeapYear year = CivilDate.isLeapYear year := by
  rw [Bool.eq_iff_iff, CivilDate.isLeapYear_iff]
  simp only [isLeapYear, Bool.and_eq_true, Bool.or_eq_true, beq_iff_eq, bne_iff_ne, ne_eq,
    ← Int.dvd_iff_tmod_eq_zero]
  omega

theorem daysInMonth_eq {year month : Int} (h : 1 ≤ month ∧ month ≤ 12) :
    daysInMonth year month = CivilDate.daysInMonth year month := by
  rw [daysInMonth, CivilDate.daysInMonth, isLeapYear_eq]
  obtain ⟨hlo, hhi⟩ := h
  interval_cases month <;> simp

/-! ## Adding months -/

variable (timestamp : Timestamp)

theorem timestamp_bounds :
    -9223372036854775808 ≤ timestamp.toInt ∧ timestamp.toInt ≤ 9223372036854775807 := by
  have hlo := timestamp.le_toInt
  have hhi := timestamp.toInt_lt
  omega

/-- The number of the day of a timestamp. -/
def dayNumber (timestamp : Timestamp) : Int :=
  timestamp.toInt / nanosecondsPerDay

theorem floorDiv_toInt :
    floorDiv timestamp.toInt nanosecondsPerDay = dayNumber timestamp :=
  floorDiv_eq (by decide) (timestamp_bounds timestamp)

/-- The timestamps lie in two eras of the calendar. -/
theorem year_dayNumber :
    1600 ≤ (CivilDate.civilFromDays (dayNumber timestamp)).year ∧
      (CivilDate.civilFromDays (dayNumber timestamp)).year ≤ 2400 := by
  have hbounds := timestamp_bounds timestamp
  have hyear := CivilDate.year_civilFromDays (dayNumber timestamp)
  have hera : 4 ≤ (dayNumber timestamp + 719468) / 146097 ∧
      (dayNumber timestamp + 719468) / 146097 ≤ 5 := by
    rw [dayNumber, nanosecondsPerDay]
    omega
  omega

variable {months : Int}

/-- The `int`s that a month is counted with. -/
theorem total_eq {month : Int} (hmonth : 1 ≤ month ∧ month ≤ 12)
    (hmonths : -1000000 ≤ months ∧ months ≤ 1000000) :
    int (int (int month - 1) + months) = month - 1 + months := by
  rw [int_eq (x := month) (by omega), int_eq (x := month - 1) (by omega), int_eq (by omega)]

/-- Months are carried into years in the same way. -/
theorem carry_eq {year total : Int} (hyear : 1600 ≤ year ∧ year ≤ 2400)
    (htotal : -1000100 ≤ total ∧ total ≤ 1000100) :
    (if total.tmod 12 < 0 then int (int (year + total.tdiv 12) - 1)
      else int (year + total.tdiv 12)) = year + total / 12 ∧
    unsigned
        (unsigned (if total.tmod 12 < 0 then int (total.tmod 12 + 12) else total.tmod 12) + 1) =
      total % 12 + 1 := by
  have hquotient := Int.mul_tdiv_add_tmod total 12
  have hbounds : -12 < total.tmod 12 ∧ total.tmod 12 < 12 :=
    ⟨Int.lt_tmod_of_pos _ (by decide), Int.tmod_lt_of_pos _ (by decide)⟩
  generalize total.tdiv 12 = q at *
  generalize total.tmod 12 = r at *
  rw [int_eq (x := year + q) (by omega)]
  split
  · rw [int_eq (x := year + q - 1) (by omega), int_eq (x := r + 12) (by omega),
      unsigned_eq (x := r + 12) (by omega), unsigned_eq (by omega)]
    omega
  · rw [unsigned_eq (x := r) (by omega), unsigned_eq (by omega)]
    omega

theorem addMonthsClamped_exact (months : Int) :
    License.addMonthsClamped timestamp months =
      License.utcDate (CivilDate.addMonths (CivilDate.civilFromDays (dayNumber timestamp)) months) +
        .ofInt (timestamp.toInt - dayNumber timestamp * nanosecondsPerDay) := rfl

/-- The months are added as in the exact calendar. -/
theorem addMonthsClamped_eq
    (hmonths : -1000000 ≤ months ∧ months ≤ 1000000) :
    addMonthsClamped timestamp months = License.addMonthsClamped timestamp months := by
  obtain ⟨hvalid, -⟩ := CivilDate.valid_civilFromDays (dayNumber timestamp)
  have hyear := year_dayNumber timestamp
  have hdate : civilFromDays (dayNumber timestamp) =
      CivilDate.civilFromDays (dayNumber timestamp) :=
    civilFromDays_eq (by rw [Fits]; omega)
  have hrest : timestamp - .ofInt (dayNumber timestamp) * .ofInt nanosecondsPerDay =
      .ofInt (timestamp.toInt - dayNumber timestamp * nanosecondsPerDay) := by
    rw [Int64.ofInt_sub, Int64.ofInt_mul, Int64.ofInt_toInt]
  rw [addMonthsClamped_exact]
  simp only [addMonthsClamped, floorDiv_toInt, hdate, hrest]
  generalize CivilDate.civilFromDays (dayNumber timestamp) = date at *
  have hmonth := hvalid.month
  obtain ⟨hcarryYear, hcarryMonth⟩ :=
    @carry_eq _ (date.month - 1 + months) hyear (by omega)
  have hcut (lastDay : Int) : (if lastDay < date.day then lastDay else date.day) =
      min date.day lastDay := by
    split <;> omega
  have hfits : Fits (CivilDate.addMonths date months) := by
    simp only [Fits, CivilDate.addMonths]
    omega
  rw [total_eq hmonth hmonths, hcarryYear, hcarryMonth, daysInMonth_eq (by omega), hcut,
    License.utcDate, ← daysFromCivil_eq (CivilDate.valid_addMonths hvalid months) hfits,
    Int64.ofInt_mul]
  rfl

/-- A timestamp is some months behind another: at the same time of the day, on the date with the
year and month that are so many months later and the same day, or the last day of a shorter
month. -/
structure MonthsLater (timestamp : Timestamp) (months : Int) (later : Timestamp) : Prop where
  timeOfDay : later.toInt % nanosecondsPerDay = timestamp.toInt % nanosecondsPerDay
  date : ∀ date, Falls (timestamp.toInt / nanosecondsPerDay) date →
    ∃ date', Falls (later.toInt / nanosecondsPerDay) date' ∧
      12 * date'.year + date'.month = 12 * date.year + date.month + months ∧
      date'.day = min date.day (CivilDate.daysInMonth date'.year date'.month)

variable {timestamp : Timestamp}

/-- Some months later is no more than the span of the timestamps. -/
theorem MonthsLater.bounds {later : Timestamp}
    (h : MonthsLater timestamp months later) : -1000000 ≤ months ∧ months ≤ 1000000 := by
  obtain ⟨date', hfalls, hmonths, -⟩ := h.date _ (CivilDate.falls_iff.2 rfl)
  have hdate' := CivilDate.falls_iff.1 hfalls
  have hyear := year_dayNumber timestamp
  have hyear' := year_dayNumber later
  have hmonth := (CivilDate.valid_civilFromDays (dayNumber timestamp)).1.month
  have hmonth' := (CivilDate.valid_civilFromDays (dayNumber later)).1.month
  rw [dayNumber] at *
  rw [hdate'] at hyear' hmonth'
  omega

/-- The months that are added lead to the one timestamp that is so many months later. -/
theorem MonthsLater.addMonthsClamped_eq {later : Timestamp}
    (h : MonthsLater timestamp months later) : addMonthsClamped timestamp months = later := by
  obtain ⟨date', hfalls, hmonths, hday⟩ := h.date _ (CivilDate.falls_iff.2 rfl)
  obtain ⟨hvalid', hnumber'⟩ := CivilDate.valid_civilFromDays (dayNumber later)
  rw [dayNumber, CivilDate.falls_iff.1 hfalls] at hvalid' hnumber'
  have hdate' : CivilDate.addMonths (CivilDate.civilFromDays (dayNumber timestamp)) months =
      date' := by
    rw [← dayNumber] at hmonths hday
    generalize CivilDate.civilFromDays (dayNumber timestamp) = date at hmonths hday ⊢
    have hmonth' := hvalid'.month
    have hyear : date.year + (date.month - 1 + months) / 12 = date'.year := by omega
    have hmonth : (date.month - 1 + months) % 12 + 1 = date'.month := by omega
    simp only [CivilDate.addMonths, hyear, hmonth, ← hday]
  have hsum : later.toInt / nanosecondsPerDay * nanosecondsPerDay +
      (timestamp.toInt - dayNumber timestamp * nanosecondsPerDay) = later.toInt := by
    have htime := h.timeOfDay
    rw [nanosecondsPerDay] at htime ⊢
    rw [dayNumber, nanosecondsPerDay]
    omega
  rw [Calendar.addMonthsClamped_eq timestamp h.bounds, addMonthsClamped_exact, hdate',
    License.utcDate, hnumber', ← Int64.ofInt_add, hsum, Int64.ofInt_toInt]

/-- The dates that timestamps fall on are a small part of those that fit. -/
theorem fits_of_falls {date : Date}
    (h : Falls (timestamp.toInt / nanosecondsPerDay) date) : Fits date := by
  have hyear := year_dayNumber timestamp
  rw [dayNumber, CivilDate.falls_iff.1 h] at hyear
  rw [Fits]
  omega

/-- **Months are added along the calendar.**  A timestamp that is so many months later is reached if
there is one.  The two conversions between day numbers and dates are inverse to each other and
follow the Gregorian calendar, for every date that a timestamp falls on and far beyond. -/
theorem addMonths_calendar :
    (∀ (timestamp later : Timestamp) (months : Int), MonthsLater timestamp months later →
      addMonthsClamped timestamp months = later) ∧
    (∀ (timestamp : Timestamp) (date : Date),
      Falls (timestamp.toInt / nanosecondsPerDay) date → Fits date) ∧
    (∀ date : Date, date.Valid → Fits date →
      civilFromDays (daysFromCivil date.year date.month date.day) = date) ∧
    (∀ (days : Int) (date : Date), Falls days date → Fits date →
      civilFromDays days = date ∧ daysFromCivil date.year date.month date.day = days) := by
  refine ⟨fun timestamp later months h ↦ h.addMonthsClamped_eq,
    fun timestamp date h ↦ fits_of_falls h, fun date hvalid hfits ↦ ?_,
    fun days date hfalls hfits ↦ ?_⟩
  · have hdate := hvalid.civilFromDays_daysFromCivil
    rw [daysFromCivil_eq hvalid hfits, civilFromDays_eq (by rwa [hdate]), hdate]
  have hdate := CivilDate.falls_iff.1 hfalls
  obtain ⟨hvalid, hnumber⟩ := CivilDate.valid_civilFromDays days
  rw [hdate] at hvalid hnumber
  rw [civilFromDays_eq (by rwa [hdate]), daysFromCivil_eq hvalid hfits]
  exact ⟨hdate, hnumber⟩

/-- The last day of January 2026, 15 months earlier, is the last day of October 2024; four months
earlier is the last day of September 2025. -/
theorem addMonths_calendar_january :
    addMonthsClamped (.ofInt (20484 * nanosecondsPerDay + 1)) (-15) =
        .ofInt (20027 * nanosecondsPerDay + 1) ∧
      addMonthsClamped (.ofInt (20484 * nanosecondsPerDay + 1)) (-4) =
        .ofInt (20361 * nanosecondsPerDay + 1) := by
  refine ⟨addMonths_calendar.1 _ _ _ ⟨by decide +kernel, fun date hdate ↦ ?_⟩,
    addMonths_calendar.1 _ _ _ ⟨by decide +kernel, fun date hdate ↦ ?_⟩⟩
  all_goals
    rw [← CivilDate.falls_iff.1 hdate]
    exact ⟨_, CivilDate.falls_iff.2 rfl, by decide +kernel, by decide +kernel⟩

end ClambHook.License.Calendar
