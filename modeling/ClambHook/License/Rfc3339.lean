import ClambHook.Basic
import ClambHook.Lib.CStringLemmas
import ClambHook.License.Calendar

/-!
# Times as text

`ch_license_parse_rfc3339` reads the text of a time, and `ch_license_format_rfc3339` writes one.
The grammar of such texts is that of RFC 3339: `DateTime` has the digits of each part, and
`DateTime.nanoseconds` is the instant that they denote, counted along the Gregorian calendar.

A text that is read denotes the timestamp that is returned, except at the end of the range: the
reader compares whole seconds with the range of a timestamp and adds the fraction afterwards.  At
the other end of the range the same comparison refuses the second that the range begins in.
-/

namespace ClambHook.License

open CString List Calendar
open CivilDate (Date)

def nanosecondsPerSecond : Int := 1000000000

/-! ## Reading -/

/-- The value of a digit. -/
def digitValue (c : UInt8) : Int := c.toNat - 48

/-- `ch_decimal_pair`: two digits at the front of a text. -/
def decimalPair : Bytes → Option Int
  | a :: b :: _ => if isdigit a && isdigit b then some (digitValue a * 10 + digitValue b) else none
  | _ => none

/-- The date and the time of the day. -/
structure Clock where
  year : Int
  month : Int
  day : Int
  hour : Int
  minute : Int
  second : Int
deriving DecidableEq, Repr

/-- The pairs of digits, if all are there. -/
def readPairs (text : Bytes) (year : Int) : Option Clock := do
  let month ← decimalPair (text.drop 5)
  let day ← decimalPair (text.drop 8)
  let hour ← decimalPair (text.drop 11)
  let minute ← decimalPair (text.drop 14)
  let second ← decimalPair (text.drop 17)
  return ⟨year, month, day, hour, minute, second⟩

def Clock.InRange (clock : Clock) : Prop :=
  (1 ≤ clock.month ∧ clock.month ≤ 12) ∧
    (1 ≤ clock.day ∧ clock.day ≤ daysInMonth clock.year clock.month) ∧
    clock.hour ≤ 23 ∧ clock.minute ≤ 59 ∧ clock.second ≤ 59

instance (clock : Clock) : Decidable clock.InRange :=
  inferInstanceAs (Decidable (_ ∧ _))

def readClock (text : Bytes) : Except Error Clock :=
  if text.length < 20 ∨ text[4]? ≠ some 45 ∨ text[7]? ≠ some 45 ∨
      (text[10]? ≠ some 84 ∧ text[10]? ≠ some 116) ∨ text[13]? ≠ some 58 ∨ text[16]? ≠ some 58 then
    .error (.set .parse (bytes "invalid RFC3339 timestamp"))
  else if !(text.take 4).all isdigit then .error (.set .parse (bytes "invalid RFC3339 year"))
  else
    match readPairs text ((text.take 4).foldl (fun year c ↦ year * 10 + digitValue c) 0) with
    | none => .error (.set .parse (bytes "invalid RFC3339 date or time"))
    | some clock =>
      if clock.InRange then .ok clock
      else .error (.set .parse (bytes "invalid RFC3339 date or time"))

/-- The nanoseconds behind the dot, and the rest of the text. -/
def readFraction (rest : Bytes) : Except Error (Int × Bytes) :=
  if rest.head? = some 46 then
    let digits := rest.tail.takeWhile isdigit
    if digits.length = 0 ∨ 9 < digits.length then
      .error (.set .parse (bytes "invalid RFC3339 fractional seconds"))
    else
      .ok (digits.foldl (fun fractional c ↦ fractional * 10 + digitValue c) 0 *
        10 ^ (9 - digits.length), rest.tail.dropWhile isdigit)
  else .ok (0, rest)

/-- The offset of the time zone in seconds, and the rest of the text. -/
def readOffset (rest : Bytes) : Except Error (Int × Bytes) :=
  if rest.head? = some 90 ∨ rest.head? = some 122 then .ok (0, rest.tail)
  else
    match decimalPair (rest.drop 1), decimalPair (rest.drop 4) with
    | some hour, some minute =>
      if rest.length = 6 ∧ (rest.head? = some 43 ∨ rest.head? = some 45) ∧ rest[3]? = some 58 ∧
          hour ≤ 23 ∧ minute ≤ 59 then
        .ok ((if rest.head? = some 43 then 1 else -1) * (hour * 3600 + minute * 60), [])
      else .error (.set .parse (bytes "RFC3339 timezone is required"))
    | _, _ => .error (.set .parse (bytes "RFC3339 timezone is required"))

/-- The seconds since 1970; they fit in an `int64_t`. -/
def Clock.seconds (clock : Clock) (offset : Int) : Int :=
  daysFromCivil clock.year clock.month clock.day * 86400 + clock.hour * 3600 +
    clock.minute * 60 + clock.second - offset

/-- The parts of the text: the whole seconds, and the nanoseconds behind them. -/
def readTime (text : Bytes) : Except Error (Int × Int) := do
  let clock ← readClock text
  let (fractional, rest) ← readFraction (text.drop 19)
  let (offset, rest) ← readOffset rest
  if rest ≠ [] then .error (.set .parse (bytes "trailing RFC3339 data"))
  else .ok (clock.seconds offset, fractional)

/-- `ch_license_parse_rfc3339`. -/
def parseRfc3339 (text : Bytes) : Except Error Timestamp := do
  let (seconds, fractional) ← readTime text
  if (2 ^ 63 - 1 : Int).tdiv nanosecondsPerSecond < seconds ∨
      seconds < (-2 ^ 63 : Int).tdiv nanosecondsPerSecond then
    .error (.set .parse (bytes "RFC3339 timestamp is out of range"))
  else .ok (.ofInt seconds * .ofInt nanosecondsPerSecond + .ofInt fractional)

/-! ## Writing -/

/-- The text of `%04d`. -/
def paddedYear : Int → Bytes
  | .ofNat n => padded 4 n
  | .negSucc n => 45 :: padded 3 (n + 1)

/-- The dot and the nanoseconds, without the zeros at the end. -/
def fractionText (nanoseconds : Int) : Bytes :=
  if 0 < nanoseconds then 46 :: (padded 9 nanoseconds.toNat).rdropWhile (· == 48) else []

/-- `ch_license_format_rfc3339`. -/
def formatRfc3339 (timestamp : Timestamp) : Bytes :=
  let seconds := floorDiv timestamp.toInt nanosecondsPerSecond
  let nanoseconds := timestamp - .ofInt seconds * .ofInt nanosecondsPerSecond
  let days := floorDiv seconds 86400
  let secondsOfDay := seconds - days * 86400
  let date := civilFromDays days
  let hour := secondsOfDay.tdiv 3600
  let minute := (secondsOfDay.tmod 3600).tdiv 60
  let second := secondsOfDay.tmod 60
  paddedYear date.year ++ [45] ++ padded 2 date.month.toNat ++ [45] ++ padded 2 date.day.toNat ++
    [84] ++ padded 2 hour.toNat ++ [58] ++ padded 2 minute.toNat ++ [58] ++ padded 2 second.toNat ++
    fractionText nanoseconds.toInt ++ [90]

/-! ## The grammar -/

/-- A number of digits. -/
structure Digits (n : Nat) (s : Bytes) : Prop where
  length : s.length = n
  digits : ∀ c ∈ s, isdigit c = true

/-- A time zone: UTC, or the hours and minutes before or behind it. -/
inductive Zone where
  | utc
  | offset (behind : Bool) (hour minute : Bytes)

/-- The digits of a time. -/
structure DateTime where
  year : Bytes
  month : Bytes
  day : Bytes
  hour : Bytes
  minute : Bytes
  second : Bytes
  /-- Without a fraction there are none. -/
  fraction : Bytes
  zone : Zone

/-- The seconds that the local time is ahead of UTC. -/
def Zone.seconds : Zone → Int
  | .utc => 0
  | .offset behind hour minute =>
    (if behind then -1 else 1) * (digitsValue hour * 3600 + digitsValue minute * 60)

inductive Zone.Valid : Zone → Prop
  | utc : Valid .utc
  | offset {behind : Bool} {hour minute : Bytes} : Digits 2 hour → Digits 2 minute →
    digitsValue hour ≤ 23 → digitsValue minute ≤ 59 → Valid (.offset behind hour minute)

def DateTime.date (time : DateTime) : Date :=
  ⟨digitsValue time.year, digitsValue time.month, digitsValue time.day⟩

/-- The date and the time of the day exist. -/
structure DateTime.ClockValid (time : DateTime) : Prop where
  year : Digits 4 time.year
  month : Digits 2 time.month
  day : Digits 2 time.day
  hour : Digits 2 time.hour
  minute : Digits 2 time.minute
  second : Digits 2 time.second
  date : time.date.Valid
  hour_le : digitsValue time.hour ≤ 23
  minute_le : digitsValue time.minute ≤ 59
  second_le : digitsValue time.second ≤ 59

/-- The time exists, and is a whole number of nanoseconds. -/
structure DateTime.Valid (time : DateTime) : Prop where
  clock : time.ClockValid
  fraction : time.fraction.length ≤ 9 ∧ ∀ c ∈ time.fraction, isdigit c = true
  zone : time.zone.Valid

/-- The whole seconds from 1970 to the time. -/
def DateTime.seconds (time : DateTime) : Int :=
  CivilDate.daysFromCivil time.date * 86400 + digitsValue time.hour * 3600 +
    digitsValue time.minute * 60 + digitsValue time.second - time.zone.seconds

/-- The nanoseconds of the fraction. -/
def DateTime.fractional (time : DateTime) : Int :=
  digitsValue time.fraction * 10 ^ (9 - time.fraction.length)

/-- The nanoseconds from 1970 to the time. -/
def DateTime.nanoseconds (time : DateTime) : Int :=
  time.seconds * 1000000000 + time.fractional

/-- The texts of a time zone. -/
inductive Zone.Writes : Zone → Bytes → Prop
  | upper : Writes .utc [90]
  | lower : Writes .utc [122]
  | offset {behind : Bool} {hour minute : Bytes} :
    Writes (.offset behind hour minute) ((if behind then 45 else 43) :: (hour ++ 58 :: minute))

/-- A fraction stands behind a dot. -/
def fractionPart (fraction : Bytes) : Bytes :=
  if fraction = [] then [] else 46 :: fraction

/-- The text of the date and the time of the day. -/
def DateTime.front (time : DateTime) (letter : UInt8) : Bytes :=
  time.year ++ 45 :: (time.month ++ 45 :: (time.day ++ letter :: (time.hour ++ 58 ::
    (time.minute ++ 58 :: time.second))))

/-- The texts of a time: the letters may be lower case. -/
def DateTime.Writes (time : DateTime) (text : Bytes) : Prop :=
  ∃ letter zone, (letter = 84 ∨ letter = 116) ∧ time.zone.Writes zone ∧
    text = time.front letter ++ (fractionPart time.fraction ++ zone)

/-! ## What is read -/

variable {s : Bytes}

theorem Digits.two (h : Digits 2 s) :
    ∃ a b, s = [a, b] ∧ isdigit a = true ∧ isdigit b = true := by
  obtain ⟨a, b, rfl⟩ := length_eq_two.1 h.length
  exact ⟨a, b, rfl, h.digits a (by simp), h.digits b (by simp)⟩

theorem digits_pair {a b : UInt8} (ha : isdigit a = true) (hb : isdigit b = true) :
    Digits 2 [a, b] :=
  ⟨rfl, by simp [ha, hb]⟩

/-- The value of digits, as the loops of the reader compute it. -/
theorem foldl_digitValue (h : ∀ c ∈ s, isdigit c = true) :
    s.foldl (fun n c ↦ n * 10 + digitValue c) 0 = (digitsValue s : Int) := by
  have hstep (c : UInt8) (hc : isdigit c = true) (n : Nat) :
      (n : Int) * 10 + digitValue c = ((10 * n + (c.toNat - 48) : Nat) : Int) := by
    have hlow := (toNat_of_isdigit hc).1
    rw [digitValue]
    omega
  have hloop : ∀ (n : Nat), s.foldl (fun n c ↦ n * 10 + digitValue c) (n : Int) =
      ((s.foldl (fun n c ↦ 10 * n + (c.toNat - 48)) n : Nat) : Int) := by
    induction s with
    | nil => exact fun n ↦ rfl
    | cons c s ih =>
      intro n
      rw [foldl_cons, foldl_cons, hstep c (h c mem_cons_self),
        ih fun d hd ↦ h d (mem_cons_of_mem c hd)]
  exact hloop 0

variable {text : Bytes}

theorem decimalPair_eq_some_iff {n : Int} :
    decimalPair text = some n ↔
      ∃ pair, Digits 2 pair ∧ text = pair ++ text.drop 2 ∧ n = digitsValue pair := by
  constructor
  · intro h
    rcases text with - | ⟨a, - | ⟨b, rest⟩⟩
    · cases h
    · cases h
    rw [decimalPair] at h
    split at h
    case isTrue hab =>
      rw [Bool.and_eq_true] at hab
      refine ⟨[a, b], digits_pair hab.1 hab.2, rfl, ?_⟩
      rw [← foldl_digitValue (digits_pair hab.1 hab.2).digits, ← Option.some.inj h]
      simp
    case isFalse => cases h
  · rintro ⟨pair, hpair, htext, rfl⟩
    rw [← foldl_digitValue hpair.digits, htext]
    obtain ⟨a, b, rfl, ha, hb⟩ := hpair.two
    simp [decimalPair, ha, hb]

/-- What is read of a time. -/
def DateTime.clock (time : DateTime) : Clock :=
  ⟨digitsValue time.year, digitsValue time.month, digitsValue time.day, digitsValue time.hour,
    digitsValue time.minute, digitsValue time.second⟩

theorem inRange_clock_iff {time : DateTime} :
    time.clock.InRange ↔ time.date.Valid ∧ digitsValue time.hour ≤ 23 ∧
      digitsValue time.minute ≤ 59 ∧ digitsValue time.second ≤ 59 := by
  constructor
  · rintro ⟨hmonth, hday, hhour, hminute, hsecond⟩
    rw [daysInMonth_eq hmonth] at hday
    exact ⟨⟨hmonth, hday⟩, Int.ofNat_le.1 hhour, Int.ofNat_le.1 hminute, Int.ofNat_le.1 hsecond⟩
  · rintro ⟨⟨hmonth, hday⟩, hhour, hminute, hsecond⟩
    rw [← daysInMonth_eq hmonth] at hday
    exact ⟨hmonth, hday, Int.ofNat_le.2 hhour, Int.ofNat_le.2 hminute, Int.ofNat_le.2 hsecond⟩

theorem drop_eq_cons {i : Nat} {c : UInt8} (h : text[i]? = some c) :
    text.drop i = c :: text.drop (i + 1) := by
  rw [drop_eq_getElem?_toList_append, h]
  rfl

theorem readClock_eq_ok_iff {clock : Clock} :
    readClock text = .ok clock ↔ ∃ (time : DateTime) (letter : UInt8) (rest : Bytes),
      time.ClockValid ∧ (letter = 84 ∨ letter = 116) ∧ text = time.front letter ++ rest ∧
      rest ≠ [] ∧ clock = time.clock := by
  constructor
  · intro h
    rw [readClock] at h
    split at h
    case isTrue => cases h
    next hsigns =>
    simp only [not_or, not_and_or, not_not, not_lt, ne_eq] at hsigns
    obtain ⟨hlength, h4, h7, h10, h13, h16⟩ := hsigns
    obtain ⟨letter, hletter, h10⟩ : ∃ letter : UInt8, (letter = 84 ∨ letter = 116) ∧
        text[10]? = some letter := by
      rcases h10 with h10 | h10
      · exact ⟨84, .inl rfl, h10⟩
      · exact ⟨116, .inr rfl, h10⟩
    split at h
    case isTrue => cases h
    next hdigits =>
    simp only [Bool.not_eq_true', Bool.not_eq_false, all_eq_true] at hdigits
    split at h
    case h_1 => cases h
    next clock' hpairs =>
    simp only [readPairs, Option.bind_eq_bind, Option.bind_eq_some_iff, decimalPair_eq_some_iff,
      drop_drop, Nat.reduceAdd, Option.pure_def, Option.some.injEq] at hpairs
    obtain ⟨_, ⟨month, hmonth, hday', rfl⟩, _, ⟨day, hday, hhour', rfl⟩, _,
      ⟨hour, hhour, hminute', rfl⟩, _, ⟨minute, hminute, hsecond', rfl⟩, _,
      ⟨second, hsecond, hrest, rfl⟩, rfl⟩ := hpairs
    split at h
    case isFalse => cases h
    next hrange =>
    cases h
    rw [foldl_digitValue hdigits] at hrange ⊢
    obtain ⟨hdate, hhourLe, hminuteLe, hsecondLe⟩ := (@inRange_clock_iff
      ⟨text.take 4, month, day, hour, minute, second, [], .utc⟩).1 hrange
    refine ⟨⟨text.take 4, month, day, hour, minute, second, [], .utc⟩, letter, text.drop 19,
      ⟨⟨by rw [length_take]; omega, hdigits⟩, hmonth, hday, hhour, hminute,
        hsecond, hdate, hhourLe, hminuteLe, hsecondLe⟩, hletter, ?_, ?_, rfl⟩
    · simp only [DateTime.front, append_assoc, cons_append, ← hrest,
        ← drop_eq_cons h16, ← hsecond', ← drop_eq_cons h13, ← hminute', ← drop_eq_cons h10,
        ← hhour', ← drop_eq_cons h7, ← hday', ← drop_eq_cons h4, take_append_drop]
    · rw [ne_eq, drop_eq_nil_iff]
      omega
  · rintro ⟨time, letter, rest, hvalid, hletter, rfl, hrest, rfl⟩
    have hrange := inRange_clock_iff.2
      ⟨hvalid.date, hvalid.hour_le, hvalid.minute_le, hvalid.second_le⟩
    have hyear := foldl_digitValue hvalid.year.digits
    have hpositive := length_pos_iff.2 hrest
    obtain ⟨year, month, day, hour, minute, second, fraction, zone⟩ := time
    obtain ⟨y1, y2, y3, y4, rfl⟩ : ∃ y1 y2 y3 y4, year = [y1, y2, y3, y4] :=
      length_eq_four.1 hvalid.year.length
    obtain ⟨m1, m2, rfl, -⟩ := hvalid.month.two
    obtain ⟨d1, d2, rfl, -⟩ := hvalid.day.two
    obtain ⟨h1, h2, rfl, -⟩ := hvalid.hour.two
    obtain ⟨i1, i2, rfl, -⟩ := hvalid.minute.two
    obtain ⟨s1, s2, rfl, -⟩ := hvalid.second.two
    generalize htext : DateTime.front _ letter ++ rest = text
    have htake : text.take 4 = [y1, y2, y3, y4] := by rw [← htext]; rfl
    have hall : [y1, y2, y3, y4].all isdigit = true := all_eq_true.2 hvalid.year.digits
    have hpairs : readPairs text (digitsValue [y1, y2, y3, y4]) = some (DateTime.clock
        ⟨[y1, y2, y3, y4], [m1, m2], [d1, d2], [h1, h2], [i1, i2], [s1, s2], fraction, zone⟩) := by
      simp only [readPairs, Option.bind_eq_bind, Option.bind_eq_some_iff, decimalPair_eq_some_iff,
        Option.pure_def, Option.some.injEq]
      rw [← htext]
      exact ⟨_, ⟨_, hvalid.month, rfl, rfl⟩, _, ⟨_, hvalid.day, rfl, rfl⟩, _,
        ⟨_, hvalid.hour, rfl, rfl⟩, _, ⟨_, hvalid.minute, rfl, rfl⟩, _,
        ⟨_, hvalid.second, rfl, rfl⟩, rfl⟩
    rw [readClock, if_neg, htake, if_neg (by simp [hall]), hyear, hpairs]
    · exact if_pos hrange
    · rw [← htext]
      rcases hletter with rfl | rfl <;> simp [DateTime.front] <;> omega

/-- The zone does not go on like a fraction. -/
theorem Zone.Writes.head? {zone : Zone} (h : zone.Writes text) :
    ∃ c rest, text = c :: rest ∧ isdigit c = false ∧ c ≠ 46 := by
  cases h with
  | upper => exact ⟨90, [], rfl, rfl, by decide⟩
  | lower => exact ⟨122, [], rfl, rfl, by decide⟩
  | @offset behind hour minute =>
    refine ⟨_, _, rfl, ?_, ?_⟩
    · cases behind <;> rfl
    · cases behind <;> decide

theorem readFraction_fractionPart {fraction zone : Bytes} {c : UInt8} {rest : Bytes}
    (hfraction : fraction.length ≤ 9 ∧ ∀ d ∈ fraction, isdigit d = true)
    (hzone : zone = c :: rest) (hc : isdigit c = false) (hdot : c ≠ 46) :
    readFraction (fractionPart fraction ++ zone) =
      .ok ((digitsValue fraction : Int) * 10 ^ (9 - fraction.length), zone) := by
  rw [readFraction, fractionPart, ← foldl_digitValue hfraction.2]
  by_cases hnil : fraction = []
  · rw [if_pos hnil, hzone, if_neg (by simpa using hdot)]
    simp [hnil]
  have hpos := length_pos_iff.2 hnil
  have htake : (fraction ++ zone).takeWhile isdigit = fraction := by
    rw [hzone, takeWhile_append_cons hc, takeWhile_eq_self_iff.2 hfraction.2]
  have hdrop : (fraction ++ zone).dropWhile isdigit = zone := by
    rw [hzone, dropWhile_append_cons hc, dropWhile_eq_nil_iff.2 hfraction.2]
    rfl
  rw [if_neg hnil, cons_append, head?_cons, if_pos rfl, tail_cons]
  simp only [htake, hdrop]
  rw [if_neg (by omega)]

theorem exists_fractionPart {rest : Bytes} {fractional : Int}
    (h : readFraction text = .ok (fractional, rest)) :
    ∃ fraction, text = fractionPart fraction ++ rest ∧
      (fraction.length ≤ 9 ∧ ∀ d ∈ fraction, isdigit d = true) ∧
      fractional = (digitsValue fraction : Int) * 10 ^ (9 - fraction.length) := by
  rw [readFraction] at h
  split at h
  case isTrue hdot =>
    simp only at h
    split at h
    case isTrue => cases h
    next hlength =>
    rw [Except.ok.injEq, Prod.mk.injEq] at h
    obtain ⟨hvalue, hrest⟩ := h
    obtain ⟨text', rfl⟩ := head?_eq_some_iff.1 hdot
    have hdigits : ∀ d ∈ text'.takeWhile isdigit, isdigit d = true := fun d hd ↦
      mem_takeWhile_imp hd
    refine ⟨text'.takeWhile isdigit, ?_, ⟨?_, hdigits⟩, ?_⟩
    · rw [fractionPart, if_neg (length_pos_iff.1 (by rw [tail_cons] at hlength; omega)),
        ← hrest, tail_cons, cons_append, takeWhile_append_dropWhile]
    · rw [tail_cons] at hlength
      omega
    · rw [← hvalue, ← foldl_digitValue hdigits, tail_cons]
  case isFalse =>
    cases h
    exact ⟨[], rfl, ⟨by simp, by simp⟩, by simp [digitsValue]⟩

theorem readOffset_eq_ok_iff {offset : Int} :
    readOffset text = .ok (offset, []) ↔
      ∃ zone : Zone, zone.Valid ∧ zone.Writes text ∧ offset = zone.seconds := by
  constructor
  · intro h
    rw [readOffset] at h
    split at h
    case isTrue hutc =>
      rw [Except.ok.injEq, Prod.mk.injEq] at h
      refine ⟨.utc, .utc, ?_, h.1.symm⟩
      rcases hutc with hutc | hutc <;> obtain ⟨rest, rfl⟩ := head?_eq_some_iff.1 hutc
      · rw [show rest = [] from h.2]
        exact .upper
      · rw [show rest = [] from h.2]
        exact .lower
    case isFalse =>
      split at h
      case h_2 => cases h
      next hour minute hhour hminute =>
      split at h
      case isFalse => cases h
      next hoffset =>
      obtain ⟨hlength, hsign, hcolon, hhourLe, hminuteLe⟩ := hoffset
      obtain ⟨hourText, hhourDigits, hhourDrop, rfl⟩ := decimalPair_eq_some_iff.1 hhour
      obtain ⟨minuteText, hminuteDigits, hminuteDrop, rfl⟩ := decimalPair_eq_some_iff.1 hminute
      obtain ⟨behind, hhead⟩ : ∃ behind : Bool, text.head? = some (if behind then 45 else 43) := by
        rcases hsign with hsign | hsign
        · exact ⟨false, hsign⟩
        · exact ⟨true, hsign⟩
      have hrest : text = (if behind then 45 else 43) :: (hourText ++ 58 :: minuteText) := by
        have hend : (text.drop 4).drop 2 = [] := by
          rw [drop_drop, drop_eq_nil_iff, hlength]
        rw [drop_drop, drop_eq_cons hcolon, hminuteDrop, hend, append_nil] at hhourDrop
        obtain ⟨rest, rfl⟩ := head?_eq_some_iff.1 hhead
        rw [← hhourDrop]
        rfl
      rw [hhead, Except.ok.injEq, Prod.mk.injEq] at h
      rw [hrest, ← h.1]
      refine ⟨.offset behind hourText minuteText, .offset hhourDigits hminuteDigits
        (Int.ofNat_le.1 hhourLe) (Int.ofNat_le.1 hminuteLe), .offset, ?_⟩
      cases behind <;> rfl
  · rintro ⟨zone, hvalid, hwrites, rfl⟩
    cases hwrites with
    | upper => rfl
    | lower => rfl
    | @offset behind hour minute =>
      cases hvalid with
      | offset hhour hminute hhourLe hminuteLe =>
        obtain ⟨h1, h2, rfl, hh1, hh2⟩ := hhour.two
        obtain ⟨m1, m2, rfl, hm1, hm2⟩ := hminute.two
        have hhourValue : decimalPair [h1, h2, 58, m1, m2] = some (digitsValue [h1, h2] : Int) :=
          decimalPair_eq_some_iff.2 ⟨_, hhour, rfl, rfl⟩
        have hminuteValue : decimalPair [m1, m2] = some (digitsValue [m1, m2] : Int) :=
          decimalPair_eq_some_iff.2 ⟨_, hminute, rfl, rfl⟩
        have hle : (digitsValue [h1, h2] : Int) ≤ 23 ∧ (digitsValue [m1, m2] : Int) ≤ 59 :=
          ⟨Int.ofNat_le.2 hhourLe, Int.ofNat_le.2 hminuteLe⟩
        cases behind <;>
          simp [readOffset, Zone.seconds, hhourValue, hminuteValue, hle]

variable {time : DateTime}

theorem DateTime.ClockValid.length_front (h : time.ClockValid) (letter : UInt8) :
    (time.front letter).length = 19 := by
  simp [DateTime.front, h.year.length, h.month.length, h.day.length, h.hour.length, h.minute.length,
    h.second.length]

theorem digitsValue_lt (h : ∀ c ∈ s, isdigit c = true) :
    digitsValue s < 10 ^ s.length := by
  induction s using List.reverseRecOn with
  | nil => decide
  | append_singleton s c ih =>
    have hhigh := (toNat_of_isdigit (h c (by simp))).2
    have hfront := ih fun d hd ↦ h d (by simp [hd])
    rw [digitsValue_append, length_append, length_singleton, pow_succ]
    simp only [digitsValue, foldl_cons, foldl_nil]
    rw [digitsValue] at hfront
    omega

theorem DateTime.ClockValid.seconds_clock (h : time.ClockValid) :
    time.clock.seconds time.zone.seconds = time.seconds := by
  have hyear := digitsValue_lt h.year.digits
  rw [h.year.length] at hyear
  have hdays := daysFromCivil_eq h.date (by simp only [Fits, DateTime.date]; omega)
  rw [Clock.seconds, DateTime.seconds, ← hdays]
  rfl

/-- **The texts that are read are those of times.** -/
theorem readTime_eq_ok_iff {seconds fractional : Int} :
    readTime text = .ok (seconds, fractional) ↔ ∃ time : DateTime, time.Valid ∧ time.Writes text ∧
      seconds = time.seconds ∧ fractional = time.fractional := by
  rw [readTime, bind_eq_ok_iff]
  simp only [bind_eq_ok_iff, Prod.exists]
  constructor
  · rintro ⟨clock, hclock, found, rest, hfraction, offset, rest', hoffset, h⟩
    split at h
    case isTrue => cases h
    next hnil =>
    obtain rfl := not_not.1 hnil
    rw [Except.ok.injEq, Prod.mk.injEq] at h
    obtain ⟨rfl, rfl⟩ := h
    obtain ⟨time, letter, behind, hvalid, hletter, rfl, -, rfl⟩ := readClock_eq_ok_iff.1 hclock
    rw [drop_left' (hvalid.length_front letter)] at hfraction
    obtain ⟨fraction, rfl, hdigits, rfl⟩ := exists_fractionPart hfraction
    obtain ⟨zone, hzone, hwrites, rfl⟩ := readOffset_eq_ok_iff.1 hoffset
    have hclock' : ({ time with fraction, zone } : DateTime).ClockValid := by
      obtain ⟨h1, h2, h3, h4, h5, h6, h7, h8, h9, h10⟩ := hvalid
      exact ⟨h1, h2, h3, h4, h5, h6, h7, h8, h9, h10⟩
    exact ⟨{ time with fraction, zone }, ⟨hclock', hdigits, hzone⟩,
      ⟨letter, rest, hletter, hwrites, rfl⟩, hclock'.seconds_clock, rfl⟩
  · rintro ⟨time, hvalid, ⟨letter, zone, hletter, hwrites, rfl⟩, rfl, rfl⟩
    obtain ⟨c, rest, hcons, hc, hdot⟩ := hwrites.head?
    refine ⟨time.clock, readClock_eq_ok_iff.2
      ⟨time, letter, _, hvalid.clock, hletter, rfl, ?_, rfl⟩,
      time.fractional, zone, ?_, time.zone.seconds, [],
      readOffset_eq_ok_iff.2 ⟨time.zone, hvalid.zone, hwrites, rfl⟩, ?_⟩
    · simp [hcons]
    · rw [drop_left' (hvalid.clock.length_front letter)]
      exact readFraction_fractionPart hvalid.fraction hcons hc hdot
    · rw [if_neg (by simp), hvalid.clock.seconds_clock]

/-! ## What is written -/

theorem digits_padded {width n : Nat} (hwidth : 0 < width) (h : n < 10 ^ width) :
    Digits width (padded width n) :=
  ⟨length_padded hwidth h, fun _ hc ↦ isdigit_of_mem_padded hc⟩

/-- Zeros at the end are made up for by the length. -/
theorem digitsValue_rdropWhile (s : Bytes) :
    digitsValue (s.rdropWhile (· == 48)) * 10 ^ (s.length - (s.rdropWhile (· == 48)).length) =
      digitsValue s := by
  induction s using List.reverseRecOn with
  | nil => rfl
  | append_singleton s c ih =>
    have hle := (List.rdropWhile_prefix (· == (48 : UInt8)) s).length_le
    by_cases hc : c = 48
    · rw [rdropWhile_concat_pos _ _ _ (by simp [hc]), digitsValue_append, ← ih, hc,
        length_append, length_singleton, Nat.succ_sub hle, pow_succ, mul_assoc]
      rfl
    · rw [rdropWhile_concat_neg _ _ _ (by simp [hc]), Nat.sub_self, pow_zero, mul_one]

theorem fractionText_eq {nanoseconds : Int} (h : 0 ≤ nanoseconds ∧ nanoseconds < 1000000000) :
    ∃ fraction, fractionText nanoseconds = fractionPart fraction ∧
      (fraction.length ≤ 9 ∧ ∀ c ∈ fraction, isdigit c = true) ∧
      (digitsValue fraction : Int) * 10 ^ (9 - fraction.length) = nanoseconds := by
  obtain ⟨n, rfl⟩ := Int.eq_ofNat_of_zero_le h.1
  have hdigits := @digits_padded 9 n (by decide) (by omega)
  rw [fractionText]
  split
  case isTrue hpos =>
    have hfront := rdropWhile_prefix (· == (48 : UInt8)) (padded 9 n)
    have hlength := hfront.length_le
    have hvalue := digitsValue_rdropWhile (padded 9 n)
    rw [hdigits.length] at hlength hvalue
    rw [digitsValue_padded] at hvalue
    refine ⟨(padded 9 n).rdropWhile (· == 48), ?_, ⟨hlength, fun c hc ↦ ?_⟩, ?_⟩
    · rw [fractionPart, if_neg]
      · rfl
      · intro hnil
        rw [hnil, show digitsValue [] = 0 from rfl, zero_mul] at hvalue
        omega
    · exact hdigits.digits c (hfront.subset hc)
    · exact_mod_cast hvalue
  case isFalse hpos =>
    refine ⟨[], rfl, ⟨by simp, by simp⟩, ?_⟩
    rw [show digitsValue [] = 0 from rfl]
    omega

/-- The text of a timestamp is that of its time in UTC. -/
theorem exists_time (timestamp : Timestamp) : ∃ time : DateTime, time.Valid ∧
    time.Writes (formatRfc3339 timestamp) ∧ time.seconds = timestamp.toInt / 1000000000 ∧
    time.nanoseconds = timestamp.toInt := by
  have hbounds := timestamp_bounds timestamp
  obtain ⟨seconds, hseconds⟩ : ∃ seconds, seconds = timestamp.toInt / 1000000000 := ⟨_, rfl⟩
  have hfloor : floorDiv timestamp.toInt nanosecondsPerSecond = seconds := by
    rw [floorDiv_eq (by decide) hbounds, hseconds]
    rfl
  have hfloorDay : floorDiv seconds 86400 = seconds / 86400 :=
    floorDiv_eq (by decide) (by omega)
  obtain ⟨rest, hrest⟩ : ∃ rest, rest = seconds - seconds / 86400 * 86400 := ⟨_, rfl⟩
  have hrange : 0 ≤ rest ∧ rest < 86400 := by omega
  have hyear := CivilDate.year_civilFromDays (seconds / 86400)
  obtain ⟨hvalid, hnumber⟩ := CivilDate.valid_civilFromDays (seconds / 86400)
  have hdate : civilFromDays (seconds / 86400) = CivilDate.civilFromDays (seconds / 86400) :=
    civilFromDays_eq (by rw [Fits]; omega)
  obtain ⟨fraction, hfraction, hdigits, hvalue⟩ :=
    @fractionText_eq (timestamp.toInt % 1000000000) (by omega)
  have hnanoseconds : (timestamp - .ofInt seconds * .ofInt nanosecondsPerSecond).toInt =
      timestamp.toInt % 1000000000 := by
    rw [← timestamp.ofInt_toInt, ← Int64.ofInt_mul, ← Int64.ofInt_sub, Int64.ofInt_toInt,
      nanosecondsPerSecond, Int64.toInt_ofInt_of_le (by omega) (by omega)]
    omega
  obtain ⟨date, hdateEq⟩ : ∃ date, date = CivilDate.civilFromDays (seconds / 86400) := ⟨_, rfl⟩
  rw [← hdateEq] at hyear hvalid hnumber hdate
  have hmonth := hvalid.month
  have hday := hvalid.day
  have hlength := CivilDate.daysInMonth_bounds date.year date.month
  have hyearText : paddedYear date.year = padded 4 date.year.toNat := by
    obtain ⟨n, hn⟩ := Int.eq_ofNat_of_zero_le (show 0 ≤ date.year by omega)
    rw [hn]
    rfl
  let time : DateTime := ⟨padded 4 date.year.toNat, padded 2 date.month.toNat,
    padded 2 date.day.toNat, padded 2 (rest / 3600).toNat, padded 2 (rest % 3600 / 60).toNat,
    padded 2 (rest % 60).toNat, fraction, .utc⟩
  have htimeDate : time.date = date := by
    simp only [time, DateTime.date, digitsValue_padded]
    rw [Int.toNat_of_nonneg (by omega), Int.toNat_of_nonneg (by omega),
      Int.toNat_of_nonneg (by omega)]
  have htimeSeconds : time.seconds = timestamp.toInt / 1000000000 := by
    rw [DateTime.seconds, htimeDate, hnumber]
    simp only [time, digitsValue_padded, Zone.seconds]
    omega
  refine ⟨time, ⟨⟨digits_padded (by decide) (by omega), digits_padded (by decide) (by omega),
    digits_padded (by decide) (by omega), digits_padded (by decide) (by omega),
    digits_padded (by decide) (by omega), digits_padded (by decide) (by omega), by rwa [htimeDate],
    ?_, ?_, ?_⟩, hdigits, .utc⟩, ⟨84, [90], .inl rfl, .upper, ?_⟩, htimeSeconds, ?_⟩
  · rw [digitsValue_padded]
    omega
  · rw [digitsValue_padded]
    omega
  · rw [digitsValue_padded]
    omega
  · simp only [formatRfc3339, hfloor, hfloorDay, hdate, hnanoseconds, hyearText, ← hrest, hfraction,
      Int.tmod_eq_emod_of_nonneg hrange.1, Int.tdiv_eq_ediv_of_nonneg hrange.1,
      Int.tdiv_eq_ediv_of_nonneg (Int.emod_nonneg rest (by decide : (3600 : Int) ≠ 0))]
    simp [time, DateTime.front]
  · have hfractional : time.fractional = timestamp.toInt % 1000000000 := hvalue
    rw [DateTime.nanoseconds]
    omega

/-! ## The ends of the range -/

/-- The time is behind the last timestamp, and in the same second. -/
def DateTime.BehindRange (time : DateTime) : Prop :=
  2 ^ 63 ≤ time.nanoseconds ∧ time.seconds = 9223372036

/-- A text is read exactly: what is returned is the time that the text denotes. -/
def ReadExactly (text : Bytes) : Prop :=
  ∀ timestamp, parseRfc3339 text = .ok timestamp →
    ∃ time : DateTime, time.Valid ∧ time.Writes text ∧ time.nanoseconds = timestamp.toInt

theorem fractional_bounds (h : time.Valid) :
    0 ≤ time.fractional ∧ time.fractional < 1000000000 := by
  have hlt := digitsValue_lt h.fraction.2
  have hpow : 10 ^ time.fraction.length * 10 ^ (9 - time.fraction.length) = 1000000000 := by
    rw [← pow_add, Nat.add_sub_cancel' h.fraction.1]
    rfl
  have hmul := Nat.mul_lt_mul_of_pos_right hlt (Nat.pow_pos (n := 9 - time.fraction.length)
    (by decide : 0 < 10))
  rw [hpow] at hmul
  rw [DateTime.fractional]
  exact ⟨by positivity, by exact_mod_cast hmul⟩

theorem parseRfc3339_eq_ok_iff {timestamp : Timestamp} :
    parseRfc3339 text = .ok timestamp ↔ ∃ time : DateTime, time.Valid ∧ time.Writes text ∧
      (-9223372036 ≤ time.seconds ∧ time.seconds ≤ 9223372036) ∧
      timestamp = .ofInt time.nanoseconds := by
  have hlast : (2 ^ 63 - 1 : Int).tdiv nanosecondsPerSecond = 9223372036 := by decide
  have hfirst : (-2 ^ 63 : Int).tdiv nanosecondsPerSecond = -9223372036 := by decide
  rw [parseRfc3339, bind_eq_ok_iff]
  simp only [Prod.exists, readTime_eq_ok_iff, hlast, hfirst]
  constructor
  · rintro ⟨seconds, fractional, ⟨time, hvalid, hwrites, rfl, rfl⟩, h⟩
    split at h
    case isTrue => cases h
    next hrange =>
    cases h
    refine ⟨time, hvalid, hwrites, by omega, ?_⟩
    rw [DateTime.nanoseconds, Int64.ofInt_add, Int64.ofInt_mul]
    rfl
  · rintro ⟨time, hvalid, hwrites, hrange, rfl⟩
    refine ⟨_, _, ⟨time, hvalid, hwrites, rfl, rfl⟩, ?_⟩
    rw [if_neg (by omega), DateTime.nanoseconds, Int64.ofInt_add, Int64.ofInt_mul]
    rfl

/-- A text is that of one time only. -/
theorem DateTime.Valid.unique {time' : DateTime} (h : time.Valid)
    (h' : time'.Valid) (hwrites : time.Writes text) (hwrites' : time'.Writes text) :
    time.seconds = time'.seconds ∧ time.nanoseconds = time'.nanoseconds := by
  have hread := readTime_eq_ok_iff.2 ⟨time', h', hwrites', rfl, rfl⟩
  rw [readTime_eq_ok_iff.2 ⟨time, h, hwrites, rfl, rfl⟩, Except.ok.injEq, Prod.mk.injEq] at hread
  rw [DateTime.nanoseconds, DateTime.nanoseconds, hread.1, hread.2]
  exact ⟨rfl, rfl⟩

/-- The text of a timestamp is read as nothing else. -/
theorem eq_of_parse_format {timestamp found : Timestamp}
    (h : parseRfc3339 (formatRfc3339 timestamp) = .ok found) :
    found = timestamp ∧ -9223372036000000000 ≤ timestamp.toInt := by
  obtain ⟨time, hvalid, hwrites, hseconds, hnanoseconds⟩ := exists_time timestamp
  obtain ⟨time', hvalid', hwrites', hrange, rfl⟩ := parseRfc3339_eq_ok_iff.1 h
  have hsame := hvalid.unique hvalid' hwrites hwrites'
  exact ⟨by rw [← hsame.2, hnanoseconds, Int64.ofInt_toInt], by omega⟩

/-- **Times are exact, but for the ends of the range.**  A text is read exactly unless its time is
behind the last timestamp by less than a second, and the text of a timestamp is read again unless it
is before the last whole second of the range. -/
theorem rfc3339_exact_iff (text : Bytes) (timestamp : Timestamp) :
    (ReadExactly text ↔
      ∀ time : DateTime, time.Valid → time.Writes text → ¬ time.BehindRange) ∧
    (parseRfc3339 (formatRfc3339 timestamp) = .ok timestamp ↔
      -9223372036000000000 ≤ timestamp.toInt) := by
  refine ⟨⟨fun hexact time hvalid hwrites hbehind ↦ ?_, fun hrange found hparse ↦ ?_⟩,
    fun h ↦ (eq_of_parse_format h).2, fun hrange ↦ parseRfc3339_eq_ok_iff.2 ?_⟩
  · obtain ⟨time', hvalid', hwrites', heq⟩ := hexact _ (parseRfc3339_eq_ok_iff.2
      ⟨time, hvalid, hwrites, ⟨by rw [hbehind.2]; decide, hbehind.2.le⟩, rfl⟩)
    have hsame := hvalid.unique hvalid' hwrites hwrites'
    have hnanoseconds := timestamp_bounds (.ofInt time.nanoseconds)
    have hbehind' := hbehind.1
    omega
  · obtain ⟨time, hvalid, hwrites, hseconds, rfl⟩ := parseRfc3339_eq_ok_iff.1 hparse
    have hfraction := fractional_bounds hvalid
    have hnot := hrange time hvalid hwrites
    refine ⟨time, hvalid, hwrites, (Int64.toInt_ofInt_of_le ?_ ?_).symm⟩
    · rw [DateTime.nanoseconds]
      omega
    · rw [DateTime.BehindRange, DateTime.nanoseconds] at hnot
      rw [DateTime.nanoseconds]
      omega
  · obtain ⟨time, hvalid, hwrites, hseconds, hnanoseconds⟩ := exists_time timestamp
    have hbounds := timestamp_bounds timestamp
    exact ⟨time, hvalid, hwrites, by omega, by rw [hnanoseconds, Int64.ofInt_toInt]⟩

/-- The nanosecond behind the last timestamp is read as the first timestamp, and the text of the
first timestamp is refused. -/
theorem rfc3339_range_ends :
    ¬ ReadExactly (bytes "2262-04-11T23:47:16.854775808Z") ∧
      ¬ ∀ timestamp, parseRfc3339 (formatRfc3339 timestamp) = .ok timestamp := by
  refine ⟨fun h ↦ ?_, fun h ↦ ?_⟩
  · obtain ⟨time, hvalid, hwrites, hfirst⟩ := h (.ofInt (-2 ^ 63)) (by decide +kernel)
    have hread : readTime (bytes "2262-04-11T23:47:16.854775808Z") =
        .ok (9223372036, 854775808) := by
      decide +kernel
    rw [readTime_eq_ok_iff.2 ⟨time, hvalid, hwrites, rfl, rfl⟩, Except.ok.injEq,
      Prod.mk.injEq] at hread
    rw [DateTime.nanoseconds, hread.1, hread.2] at hfirst
    exact absurd hfirst (by decide +kernel)
  · exact absurd (h (.ofInt (-2 ^ 63))) (by decide +kernel)

end ClambHook.License
