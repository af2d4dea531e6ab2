import Mathlib

/-!
# The civil calendar

Days are counted from 1 January 1970.  The two conversions between day numbers and dates are those
of the well-known algorithms that let the year begin in March, so that a leap day is the last day of
its year.  The divisions are floor divisions.

Months are counted through the years: month `k` has the days from `monthsStart k` to
`monthsStart (k + 1)` (`monthsStart_succ`).  `civilFromDays` finds a date that exists and has the
number (`valid_civilFromDays`).  Some months later, with the day cut to the length of the month, is
a later day (`lt_addMonths`), and a year later keeps the order of two days unless the later is a
leap day (`addMonths_twelve_lt`).  That the conversions follow the calendar from day to day is
`falls_iff`.
-/

set_option autoImplicit false

namespace CivilDate

/-- A date. -/
structure Date where
  year : Int
  month : Int
  day : Int
deriving DecidableEq, Repr

/-- The number of a day. -/
def daysFromCivil (date : Date) : Int :=
  let year := if date.month ≤ 2 then date.year - 1 else date.year
  let era := year / 400
  let yearOfEra := year - era * 400
  let adjustedMonth := if 2 < date.month then date.month - 3 else date.month + 9
  let dayOfYear := (153 * adjustedMonth + 2) / 5 + date.day - 1
  let dayOfEra := yearOfEra * 365 + yearOfEra / 4 - yearOfEra / 100 + dayOfYear
  era * 146097 + dayOfEra - 719468

/-- The date of a day. -/
def civilFromDays (days : Int) : Date :=
  let days := days + 719468
  let era := days / 146097
  let dayOfEra := days - era * 146097
  let yearOfEra := (dayOfEra - dayOfEra / 1460 + dayOfEra / 36524 - dayOfEra / 146096) / 365
  let dayOfYear := dayOfEra - (365 * yearOfEra + yearOfEra / 4 - yearOfEra / 100)
  let monthPrime := (5 * dayOfYear + 2) / 153
  let day := dayOfYear - (153 * monthPrime + 2) / 5 + 1
  let month := if monthPrime < 10 then monthPrime + 3 else monthPrime - 9
  let year := yearOfEra + era * 400
  ⟨if month ≤ 2 then year + 1 else year, month, day⟩

def isLeapYear (year : Int) : Bool :=
  year % 4 == 0 && (year % 100 != 0 || year % 400 == 0)

/-- The number of days of a month. -/
def daysInMonth (year month : Int) : Int :=
  if month = 2 then if isLeapYear year then 29 else 28
  else if month = 4 ∨ month = 6 ∨ month = 9 ∨ month = 11 then 30
  else 31

/-- The date exists. -/
structure Date.Valid (date : Date) : Prop where
  month : 1 ≤ date.month ∧ date.month ≤ 12
  day : 1 ≤ date.day ∧ date.day ≤ daysInMonth date.year date.month

theorem isLeapYear_iff {year : Int} :
    isLeapYear year = true ↔ year % 4 = 0 ∧ (year % 100 ≠ 0 ∨ year % 400 = 0) := by
  simp [isLeapYear]

/-- A date some months later, with the day cut to the length of the month. -/
def addMonths (date : Date) (months : Int) : Date :=
  let total := date.month - 1 + months
  let year := date.year + total / 12
  let month := total % 12 + 1
  ⟨year, month, min date.day (daysInMonth year month)⟩

/-! ## Years and months that begin in March -/

/-- The number of days in front of a year. -/
def yearStart (year : Int) : Int :=
  365 * year + year / 4 - year / 100 + year / 400

/-- The number of days in front of a month, which is counted from March of the year 0 on. -/
def monthsStart (k : Int) : Int :=
  yearStart (k / 12) + (153 * (k % 12) + 2) / 5

/-- The length of a month. -/
def monthsLength (k : Int) : Int :=
  daysInMonth ((k + 2) / 12) ((k + 2) % 12 + 1)

theorem daysInMonth_bounds (year month : Int) :
    28 ≤ daysInMonth year month ∧ daysInMonth year month ≤ 31 := by
  rw [daysInMonth]
  split
  · split <;> omega
  · split <;> omega

theorem daysInMonth_two (year : Int) : daysInMonth year 2 = 28 ∨ daysInMonth year 2 = 29 := by
  rw [daysInMonth, if_pos rfl]
  split
  · exact .inr rfl
  · exact .inl rfl

/-- The length of a year. -/
theorem yearStart_succ (year : Int) :
    yearStart (year + 1) = yearStart year + 337 + daysInMonth (year + 1) 2 := by
  rw [daysInMonth, if_pos rfl, yearStart, yearStart]
  by_cases hleap : isLeapYear (year + 1) = true
  · have hyear := isLeapYear_iff.1 hleap
    rw [if_pos hleap]
    omega
  · have hyear := mt isLeapYear_iff.2 hleap
    rw [if_neg hleap]
    omega

/-- A month begins where the one in front of it ends. -/
theorem monthsStart_succ (k : Int) : monthsStart (k + 1) = monthsStart k + monthsLength k := by
  have hmonth : 0 ≤ k % 12 ∧ k % 12 < 12 :=
    ⟨Int.emod_nonneg k (by decide), Int.emod_lt_of_pos k (by decide)⟩
  rw [monthsStart, monthsStart, monthsLength]
  obtain ⟨m, hm⟩ : ∃ m, m = k % 12 := ⟨_, rfl⟩
  rw [← hm] at hmonth ⊢
  by_cases hlast : m = 11
  · have hyear : (k + 1) / 12 = k / 12 + 1 ∧ (k + 1) % 12 = 0 ∧ (k + 2) / 12 = k / 12 + 1 ∧
        (k + 2) % 12 + 1 = 2 := by omega
    rw [hyear.1, hyear.2.1, hyear.2.2.1, hyear.2.2.2, yearStart_succ, hlast]
    omega
  · have hyear : (k + 1) / 12 = k / 12 ∧ (k + 1) % 12 = m + 1 := by omega
    rw [hyear.1, hyear.2]
    obtain ⟨hlo, hhi⟩ := hmonth
    have hm2 : (k + 2) % 12 + 1 = if m < 10 then m + 3 else m - 9 := by
      split <;> omega
    rw [hm2, daysInMonth]
    clear hm hm2 hyear
    interval_cases m <;> simp <;> omega

theorem monthsStart_strictMono : StrictMono monthsStart := by
  refine strictMono_int_of_lt_succ fun k ↦ ?_
  have hlength := daysInMonth_bounds ((k + 2) / 12) ((k + 2) % 12 + 1)
  rw [monthsStart_succ, monthsLength]
  omega

/-- The number of the month of a date. -/
def Date.index (date : Date) : Int :=
  12 * date.year + date.month - 3

variable {date : Date}

theorem Date.monthsLength_index (hmonth : 1 ≤ date.month ∧ date.month ≤ 12) :
    monthsLength date.index = daysInMonth date.year date.month := by
  have hyear : (date.index + 2) / 12 = date.year ∧ (date.index + 2) % 12 + 1 = date.month := by
    rw [Date.index]
    omega
  rw [monthsLength, hyear.1, hyear.2]

/-- The number of a day is counted from its month. -/
theorem Date.daysFromCivil_eq (hmonth : 1 ≤ date.month ∧ date.month ≤ 12) :
    daysFromCivil date = monthsStart date.index + date.day - 1 - 719468 := by
  rw [daysFromCivil, monthsStart, yearStart, Date.index]
  by_cases hearly : date.month ≤ 2
  · have hindex : (12 * date.year + date.month - 3) / 12 = date.year - 1 ∧
        (12 * date.year + date.month - 3) % 12 = date.month + 9 := by omega
    rw [if_pos hearly, if_neg (not_lt.2 hearly), hindex.1, hindex.2]
    omega
  · have hindex : (12 * date.year + date.month - 3) / 12 = date.year ∧
        (12 * date.year + date.month - 3) % 12 = date.month - 3 := by omega
    rw [if_neg hearly, if_pos (not_le.1 hearly), hindex.1, hindex.2]
    omega

/-! ## The date of a day -/

/-- The days of an era without its leap days. -/
def leapless (day : Int) : Int :=
  day - day / 1460 + day / 36524 - day / 146096

theorem leapless_mono {a b : Int} (ha : 0 ≤ a) (h : a ≤ b) (hb : b ≤ 146096) :
    leapless a ≤ leapless b := by
  induction b, h using Int.leInduction with
  | base => exact le_rfl
  | succ b hab ih =>
    refine (ih (by omega)).trans ?_
    rw [leapless, leapless]
    omega

theorem leapless_ends : ∀ n < 400, leapless (yearStart (n : ℕ)) / 365 = n ∧
    leapless (yearStart ((n : ℕ) + 1) - 1) / 365 = n := by
  decide +kernel

/-- The year of a day of an era is found without a search. -/
theorem exists_year {day : Int} (h : 0 ≤ day ∧ day < 146097) :
    ∃ n : ℕ, n < 400 ∧ leapless day / 365 = n ∧ yearStart n ≤ day ∧ day < yearStart (n + 1) := by
  obtain ⟨n, hn⟩ : ∃ n : ℕ, leapless day / 365 = n := by
    refine Int.eq_ofNat_of_zero_le ?_
    rw [leapless]
    omega
  have hyear : n < 400 := by
    rw [leapless] at hn
    omega
  refine ⟨n, hyear, hn, ?_, ?_⟩
  · by_contra hbefore
    cases n with
    | zero => exact hbefore h.1
    | succ n =>
      have hlast := (leapless_ends n (by omega)).2
      push_cast at hn hbefore
      have hle := leapless_mono h.1 (show day ≤ yearStart (n + 1) - 1 by omega)
        (by rw [yearStart]; omega)
      omega
  · by_contra hbehind
    have hnext : n + 1 < 400 := by
      rw [yearStart] at hbehind
      omega
    have hfirst := (leapless_ends (n + 1) hnext).1
    push_cast at hfirst
    have hle := leapless_mono (by rw [yearStart]; omega) (not_lt.1 hbehind) (by omega)
    omega

/-- The year of an era that is found, and the day of this year. -/
theorem dayOfYear_bounds {doe yoe : Int} (h : 0 ≤ doe ∧ doe < 146097)
    (hyoe : yoe = leapless doe / 365) :
    (0 ≤ yoe ∧ yoe < 400) ∧ 0 ≤ doe - (365 * yoe + yoe / 4 - yoe / 100) ∧
      doe - (365 * yoe + yoe / 4 - yoe / 100) < 366 := by
  obtain ⟨n, hn, hyear, hlo, hhi⟩ := exists_year h
  have hsucc := yearStart_succ n
  have hfebruary := daysInMonth_two (n + 1)
  have hstart : yearStart n = 365 * n + n / 4 - n / 100 := by
    rw [yearStart]
    omega
  rw [hyoe, hyear]
  omega

/-- The day of a year is in a month that begins in March. -/
theorem month_of_dayOfYear {doy month : Int} (h : 0 ≤ doy ∧ doy < 366)
    (hmonth : month = (5 * doy + 2) / 153) :
    0 ≤ month ∧ month ≤ 11 ∧ (153 * month + 2) / 5 ≤ doy ∧
      (month ≤ 10 → doy < (153 * (month + 1) + 2) / 5) := by
  omega

variable (days : Int)

theorem monthsStart_eq {year month : Int} (h0 : 0 ≤ month) (h11 : month ≤ 11) :
    monthsStart (12 * year + month) = yearStart year + (153 * month + 2) / 5 := by
  have hsplit : (12 * year + month) / 12 = year ∧ (12 * year + month) % 12 = month := by omega
  rw [monthsStart, hsplit.1, hsplit.2]

/-- The date of a day: its year begins in March, and its month is counted from there. -/
theorem civilFromDays_spec :
    ∃ year month day : Int, 0 ≤ month ∧ month ≤ 11 ∧ 1 ≤ day ∧
      day ≤ monthsLength (12 * year + month) ∧
      days + 719468 = yearStart year + (153 * month + 2) / 5 + day - 1 ∧
      civilFromDays days =
        ⟨if month < 10 then year else year + 1, if month < 10 then month + 3 else month - 9,
          day⟩ := by
  obtain ⟨era, hera⟩ : ∃ era, era = (days + 719468) / 146097 := ⟨_, rfl⟩
  obtain ⟨doe, hdoe⟩ : ∃ doe, doe = days + 719468 - era * 146097 := ⟨_, rfl⟩
  have hrange : 0 ≤ doe ∧ doe < 146097 := by omega
  obtain ⟨n, hn, hyoe, hlo, hhi⟩ := exists_year hrange
  obtain ⟨doy, hdoy⟩ : ∃ doy, doy = doe - yearStart n := ⟨_, rfl⟩
  obtain ⟨month, hmonth⟩ : ∃ month, month = (5 * doy + 2) / 153 := ⟨_, rfl⟩
  have hyear : yearStart (n + era * 400) = era * 146097 + yearStart n := by
    rw [yearStart, yearStart]
    omega
  have hnext : yearStart (n + era * 400 + 1) = era * 146097 + yearStart (n + 1) := by
    rw [yearStart, yearStart]
    omega
  have hsucc := yearStart_succ (n + era * 400)
  have hfebruary := daysInMonth_two (n + era * 400 + 1)
  have hdays : doy < 337 + daysInMonth (n + era * 400 + 1) 2 := by omega
  obtain ⟨hmonth0, hmonth11, hmlo, hmhi⟩ := month_of_dayOfYear ⟨by omega, by omega⟩ hmonth
  refine ⟨n + era * 400, month, doy - (153 * month + 2) / 5 + 1, hmonth0, hmonth11, by omega, ?_,
    by omega, ?_⟩
  · have hstart := monthsStart_succ (12 * (n + era * 400) + month)
    rw [monthsStart_eq hmonth0 hmonth11] at hstart
    by_cases hlast : month ≤ 10
    · have hbehind := hmhi hlast
      rw [add_assoc, monthsStart_eq (by omega) (by omega)] at hstart
      omega
    · have hmarch : 12 * (n + era * 400) + month + 1 = 12 * (n + era * 400 + 1) + 0 := by omega
      rw [hmarch, monthsStart_eq (by omega) (by omega)] at hstart
      omega
  · have hyearOfEra : (doe - doe / 1460 + doe / 36524 - doe / 146096) / 365 = n := hyoe
    have hdayOfYear : doe - (365 * (n : ℤ) + (n : ℤ) / 4 - (n : ℤ) / 100) = doy := by
      rw [hdoy, yearStart]
      omega
    simp only [civilFromDays, ← hera, ← hdoe, hyearOfEra, hdayOfYear, ← hmonth]
    by_cases hearly : month < 10
    · rw [if_pos hearly, if_pos hearly, if_neg (by omega)]
    · rw [if_neg hearly, if_neg hearly, if_pos (by omega)]

/-- **The date of a day exists**, and has its number. -/
theorem valid_civilFromDays :
    (civilFromDays days).Valid ∧ daysFromCivil (civilFromDays days) = days := by
  obtain ⟨year, month, day, hmonth0, hmonth11, hday1, hday, hdays, hdate⟩ := civilFromDays_spec days
  have hindex : (civilFromDays days).index = 12 * year + month := by
    rw [hdate, Date.index]
    simp only
    split <;> omega
  have hmonth : 1 ≤ (civilFromDays days).month ∧ (civilFromDays days).month ≤ 12 := by
    rw [hdate]
    simp only
    split <;> omega
  have hdayEq : (civilFromDays days).day = day := by rw [hdate]
  refine ⟨⟨hmonth, ?_⟩, ?_⟩
  · rw [← Date.monthsLength_index hmonth, hindex, hdayEq]
    exact ⟨hday1, hday⟩
  · rw [Date.daysFromCivil_eq hmonth, hindex, hdayEq, monthsStart_eq hmonth0 hmonth11]
    omega

/-! ## Later dates -/

/-- A day in a month, with the day cut to the length of the month. -/
def dayIn (k day : Int) : Int :=
  monthsStart k + min day (monthsLength k) - 1 - 719468

/-- A day of a later month is later. -/
theorem dayIn_lt {k k' day day' : Int} (hday' : 1 ≤ day') (h : k < k') :
    dayIn k day < dayIn k' day' := by
  have hstart := monthsStart_strictMono.monotone (show k + 1 ≤ k' by omega)
  have hlength := daysInMonth_bounds ((k' + 2) / 12) ((k' + 2) % 12 + 1)
  have hpos : 28 ≤ monthsLength k' := hlength.1
  rw [monthsStart_succ] at hstart
  rw [dayIn, dayIn]
  omega

/-- The months are counted on, and the day stays or is cut. -/
theorem daysFromCivil_addMonths (date : Date) (months : Int) :
    daysFromCivil (addMonths date months) = dayIn (date.index + months) date.day := by
  have hmonth : 1 ≤ (addMonths date months).month ∧ (addMonths date months).month ≤ 12 := by
    rw [addMonths]
    simp only
    omega
  have hindex : (addMonths date months).index = date.index + months := by
    rw [addMonths, Date.index, Date.index]
    simp only
    omega
  rw [Date.daysFromCivil_eq hmonth, dayIn, ← hindex, Date.monthsLength_index hmonth]
  rfl

/-- A valid date is a day of its month. -/
theorem Date.Valid.daysFromCivil_eq_dayIn (h : date.Valid) :
    daysFromCivil date = dayIn date.index date.day := by
  have hday := h.day
  rw [Date.daysFromCivil_eq h.month, dayIn, Date.monthsLength_index h.month, min_eq_left hday.2]

/-- Dates are ordered as their days are. -/
theorem Date.Valid.lex_of_le {date date' : Date} (h : date.Valid) (h' : date'.Valid)
    (hle : daysFromCivil date ≤ daysFromCivil date') :
    date.index < date'.index ∨ date.index = date'.index ∧ date.day ≤ date'.day := by
  rcases lt_trichotomy date.index date'.index with hlt | heq | hgt
  · exact .inl hlt
  · refine .inr ⟨heq, ?_⟩
    rw [Date.daysFromCivil_eq h.month, Date.daysFromCivil_eq h'.month, heq] at hle
    omega
  · have hbefore := @dayIn_lt _ _ date'.day _ h.day.1 hgt
    rw [← h.daysFromCivil_eq_dayIn, ← h'.daysFromCivil_eq_dayIn] at hbefore
    omega

/-- Some months later is a later day. -/
theorem lt_addMonths {months : Int} (hmonths : 0 < months) (days : Int) :
    days < daysFromCivil (addMonths (civilFromDays days) months) := by
  obtain ⟨hvalid, heq⟩ := valid_civilFromDays days
  rw [daysFromCivil_addMonths]
  nth_rewrite 1 [← heq]
  rw [hvalid.daysFromCivil_eq_dayIn]
  exact dayIn_lt hvalid.day.1 (by omega)

/-! ## A year later

Twelve months later is the same day of the month, except for a leap day.  So the order of two days
that are not the same is kept, if the later is no leap day. -/

/-- The leap day of a year. -/
def Date.LeapDay (date : Date) : Prop :=
  date.month = 2 ∧ date.day = 29

/-- A valid date is the date of its number. -/
theorem Date.Valid.civilFromDays_daysFromCivil (h : date.Valid) :
    civilFromDays (daysFromCivil date) = date := by
  obtain ⟨hvalid, heq⟩ := valid_civilFromDays (daysFromCivil date)
  have hle := hvalid.lex_of_le h heq.le
  have hge := h.lex_of_le hvalid heq.ge
  have hmonth := h.month
  have hmonth' := hvalid.month
  generalize civilFromDays (daysFromCivil date) = found at *
  obtain ⟨year, month, day⟩ := date
  obtain ⟨year', month', day'⟩ := found
  simp only [Date.index, Date.mk.injEq] at *
  omega

theorem valid_addMonths (h : date.Valid) (months : Int) : (addMonths date months).Valid := by
  have hday := h.day
  constructor
  · rw [addMonths]
    simp only
    omega
  · have hbounds := daysInMonth_bounds (date.year + (date.month - 1 + months) / 12)
      ((date.month - 1 + months) % 12 + 1)
    rw [addMonths]
    simp only
    omega

theorem addMonths_twelve (h : date.Valid) :
    addMonths date 12 =
      ⟨date.year + 1, date.month, min date.day (daysInMonth (date.year + 1) date.month)⟩ := by
  have hmonth := h.month
  have hyear : date.year + (date.month - 1 + 12) / 12 = date.year + 1 ∧
      (date.month - 1 + 12) % 12 + 1 = date.month := by omega
  rw [addMonths]
  simp only [hyear.1, hyear.2]

/-- Next to a leap year is none. -/
theorem daysInMonth_two_succ {year : Int} (h : daysInMonth year 2 = 29) :
    daysInMonth (year + 1) 2 = 28 := by
  have hleap : isLeapYear year = true := by
    by_contra hnot
    rw [daysInMonth, if_pos rfl, if_neg hnot] at h
    omega
  have hyear := isLeapYear_iff.1 hleap
  have hnot : ¬ isLeapYear (year + 1) = true := by
    rw [isLeapYear_iff]
    omega
  rw [daysInMonth, if_pos rfl, if_neg hnot]

/-- A year later is no leap day. -/
theorem not_leapDay_addMonths_twelve (h : date.Valid) : ¬ (addMonths date 12).LeapDay := by
  have hday := h.day
  rw [addMonths_twelve h, Date.LeapDay]
  simp only
  rintro ⟨hmonth, hday29⟩
  rw [hmonth] at hday hday29
  have hlength := daysInMonth_two date.year
  have hnext := @daysInMonth_two_succ date.year (by omega)
  omega

/-- A day that is no leap day stays the same in the next year. -/
theorem day_le_daysInMonth_succ (h : date.Valid) (hleap : ¬ date.LeapDay) :
    date.day ≤ daysInMonth (date.year + 1) date.month := by
  have hday := h.day
  by_cases hmonth : date.month = 2
  · have hne : date.day ≠ 29 := fun hday29 ↦ hleap ⟨hmonth, hday29⟩
    rw [hmonth] at hday ⊢
    have hlength := daysInMonth_two date.year
    have hnext := daysInMonth_bounds (date.year + 1) 2
    omega
  · rw [daysInMonth, if_neg hmonth] at hday ⊢
    exact hday.2

/-- **A year later keeps the order of two days**, if the later is no leap day. -/
theorem addMonths_twelve_lt {days days' : Int} (hlt : days < days')
    (hleap : ¬ (civilFromDays days').LeapDay) :
    daysFromCivil (addMonths (civilFromDays days) 12) <
      daysFromCivil (addMonths (civilFromDays days') 12) := by
  obtain ⟨hvalid, heq⟩ := valid_civilFromDays days
  obtain ⟨hvalid', heq'⟩ := valid_civilFromDays days'
  have hlex := hvalid.lex_of_le hvalid' (by rw [heq, heq']; exact hlt.le)
  have hkept := day_le_daysInMonth_succ hvalid' hleap
  have hmonth' := (valid_addMonths hvalid' 12).month
  simp only [daysFromCivil_addMonths]
  rcases hlex with hindex | ⟨hindex, -⟩
  · exact dayIn_lt hvalid'.day.1 (by omega)
  have hday : (civilFromDays days).day < (civilFromDays days').day := by
    rw [← heq, ← heq', Date.daysFromCivil_eq hvalid.month, Date.daysFromCivil_eq hvalid'.month,
      hindex] at hlt
    omega
  have hlength : monthsLength ((civilFromDays days').index + 12) =
      daysInMonth ((civilFromDays days').year + 1) (civilFromDays days').month := by
    rw [addMonths_twelve hvalid'] at hmonth'
    have hnext := Date.monthsLength_index hmonth'
    rw [← hnext, Date.index, Date.index]
    congr 1
    simp only
    omega
  rw [dayIn, dayIn, hindex, hlength]
  omega

/-! ## The calendar

The calendar goes on from day to day: behind the last day of a month comes the first day of the next
one, and day 0 is 1 January 1970. -/

/-- The day behind a date. -/
def Date.next (date : Date) : Date :=
  if date.day < daysInMonth date.year date.month then { date with day := date.day + 1 }
  else if date.month < 12 then ⟨date.year, date.month + 1, 1⟩
  else ⟨date.year + 1, 1, 1⟩

/-- A day has a date in the Gregorian calendar. -/
inductive Falls : Int → Date → Prop
  | epoch : Falls 0 ⟨1970, 1, 1⟩
  | next {days : Int} {date : Date} : Falls days date → Falls (days + 1) date.next
  | previous {days : Int} {date : Date} : date.Valid → Falls (days + 1) date.next → Falls days date

theorem Date.Valid.next (h : date.Valid) : date.next.Valid := by
  have hmonth := h.month
  have hday := h.day
  have hlength := daysInMonth_bounds date.year (date.month + 1)
  have hjanuary := daysInMonth_bounds (date.year + 1) 1
  rw [Date.next]
  split
  · exact ⟨hmonth, by simp only; omega⟩
  · split
    all_goals exact ⟨by simp only; omega, by simp only; omega⟩

theorem Date.Valid.daysFromCivil_next (h : date.Valid) :
    daysFromCivil date.next = daysFromCivil date + 1 := by
  have hmonth := h.month
  have hday := h.day
  rw [Date.daysFromCivil_eq h.next.month, Date.daysFromCivil_eq hmonth]
  by_cases hlast : date.day < daysInMonth date.year date.month
  · rw [Date.next, if_pos hlast]
    simp only [Date.index]
    omega
  · have hindex : date.next.index = date.index + 1 ∧ date.next.day = 1 := by
      rw [Date.next, if_neg hlast]
      split
      all_goals
        refine ⟨?_, rfl⟩
        simp only [Date.index]
        omega
    rw [hindex.1, hindex.2, monthsStart_succ, Date.monthsLength_index hmonth]
    omega

theorem Date.Valid.eq_of_daysFromCivil {date date' : Date} (h : date.Valid) (h' : date'.Valid)
    (heq : daysFromCivil date = daysFromCivil date') : date = date' := by
  rw [← h.civilFromDays_daysFromCivil, ← h'.civilFromDays_daysFromCivil, heq]

theorem civilFromDays_succ : civilFromDays (days + 1) = (civilFromDays days).next := by
  obtain ⟨hvalid, heq⟩ := valid_civilFromDays days
  obtain ⟨hvalid', heq'⟩ := valid_civilFromDays (days + 1)
  refine hvalid'.eq_of_daysFromCivil hvalid.next ?_
  rw [heq', hvalid.daysFromCivil_next, heq]

/-- **The conversion follows the calendar.** -/
theorem falls_iff {days : Int} {date : Date} : Falls days date ↔ civilFromDays days = date := by
  constructor
  · intro h
    induction h with
    | epoch => decide
    | next _ ih => rw [civilFromDays_succ, ih]
    | @previous days date hvalid _ ih =>
      obtain ⟨hvalid', heq⟩ := valid_civilFromDays days
      obtain ⟨_, hnext⟩ := valid_civilFromDays (days + 1)
      rw [ih, hvalid.daysFromCivil_next] at hnext
      exact hvalid'.eq_of_daysFromCivil hvalid (by omega)
  · rintro rfl
    induction days using Int.induction_on with
    | zero => exact .epoch
    | succ days ih =>
      rw [civilFromDays_succ]
      exact .next ih
    | pred days ih =>
      refine .previous (valid_civilFromDays _).1 ?_
      rw [← civilFromDays_succ, Int.sub_add_cancel]
      exact ih

/-- The year of a day is in its era. -/
theorem year_civilFromDays :
    (days + 719468) / 146097 * 400 ≤ (civilFromDays days).year ∧
      (civilFromDays days).year ≤ (days + 719468) / 146097 * 400 + 400 := by
  obtain ⟨era, hera⟩ : ∃ era, era = (days + 719468) / 146097 := ⟨_, rfl⟩
  obtain ⟨doe, hdoe⟩ : ∃ doe, doe = days + 719468 - era * 146097 := ⟨_, rfl⟩
  simp only [civilFromDays, ← hera, ← hdoe]
  obtain ⟨hyoe, -⟩ := @dayOfYear_bounds doe _ ⟨by omega, by omega⟩ rfl
  rw [leapless] at hyoe
  generalize (doe - doe / 1460 + doe / 36524 - doe / 146096) / 365 = yoe at hyoe ⊢
  split <;> omega

end CivilDate
