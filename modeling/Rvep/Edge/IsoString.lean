import Rvep.Backend.TelemetryFrame

/-!
# Instants as text

`toISOString` of a clock reading, as the edge sends it, and `new Date` of that
text, as the backend reads it.
-/

namespace Rvep

-- ---------------------------------------------------------------------------
-- Days
-- ---------------------------------------------------------------------------

def yearLength (year : Nat) : Nat := if isLeapYear year then 366 else 365

/-- The year of a day that is counted from the first one of `year`, and the day in it. -/
def yearOfDay (year day : Nat) : Nat → Nat × Nat
  | 0 => (year, day)
  | fuel + 1 =>
    if day < yearLength year then (year, day) else yearOfDay (year + 1) (day - yearLength year) fuel

/-- The month of a day that is counted from the first one of `month`, and the day in it. -/
def monthOfDay (year month day : Nat) : Nat → Nat × Nat
  | 0 => (month, day)
  | fuel + 1 =>
    if day < daysInMonth year month then (month, day)
    else monthOfDay year (month + 1) (day - daysInMonth year month) fuel

/-- Year, month and day of a number of days since 1970-01-01. -/
def civilDate (days : Nat) : Nat × Nat × Nat :=
  let (year, day) := yearOfDay 1970 days days
  let (month, day) := monthOfDay year 1 day 11
  (year, month, day + 1)

-- ---------------------------------------------------------------------------
-- Text
-- ---------------------------------------------------------------------------

def digitChar (n : Nat) : Char := Char.ofNat (48 + n % 10)

def padded2 (n : Nat) : List Char := [digitChar (n / 10), digitChar n]

def padded3 (n : Nat) : List Char := [digitChar (n / 100), digitChar (n / 10), digitChar n]

/-- A year beyond 9999 has a sign and six digits. -/
def yearText (year : Nat) : List Char :=
  if year < 10000 then padded2 (year / 100) ++ padded2 (year % 100)
  else '+' :: (padded3 (year / 1000) ++ padded3 (year % 1000))

/-- `new Date(ms).toISOString()`, for a clock that reads 1970 or later. -/
def toISOString (ms : Nat) : String :=
  let (year, month, day) := civilDate (ms / 86400000)
  let time := ms % 86400000
  String.ofList (yearText year ++ '-' :: padded2 month ++ '-' :: padded2 day ++
    'T' :: padded2 (time / 3600000) ++ ':' :: padded2 (time / 60000 % 60) ++
    ':' :: padded2 (time / 1000 % 60) ++ '.' :: padded3 (time % 1000) ++ ['Z'])

example : toISOString 1709251147120 = "2024-02-29T23:59:07.120Z" := by decide
example : toISOString 253402300800000 = "+010000-01-01T00:00:00.000Z" := by decide +kernel

-- ---------------------------------------------------------------------------
-- Days are counted back
-- ---------------------------------------------------------------------------

/-- The days before a year, from the first one of the year 0. -/
def daysBefore (year : Nat) : Nat := 365 * year + Backend.leapYearsBefore year

theorem leapYearsBefore_succ (year : Nat) :
    Backend.leapYearsBefore (year + 1) =
      Backend.leapYearsBefore year + if isLeapYear year then 1 else 0 := by
  have hleap : isLeapYear year = true ↔ (year % 4 = 0 ∧ year % 100 ≠ 0) ∨ year % 400 = 0 := by
    simp [isLeapYear]
  unfold Backend.leapYearsBefore
  split
  next h =>
    rw [hleap] at h
    omega
  next h =>
    rw [hleap] at h
    omega

theorem daysBefore_succ (year : Nat) : daysBefore (year + 1) = daysBefore year + yearLength year := by
  have h := leapYearsBefore_succ year
  unfold daysBefore yearLength
  split at h
  next hleap =>
    rw [if_pos hleap]
    omega
  next hleap =>
    rw [if_neg hleap]
    omega

theorem yearLength_pos (year : Nat) : 365 ≤ yearLength year := by
  unfold yearLength
  split <;> omega

theorem yearOfDay_spec (year day fuel : Nat) (hfuel : day ≤ fuel) :
    let found := yearOfDay year day fuel
    daysBefore found.1 + found.2 = daysBefore year + day ∧ found.2 < yearLength found.1 := by
  induction fuel generalizing year day with
  | zero =>
    obtain rfl := Nat.le_zero.mp hfuel
    exact ⟨rfl, Nat.lt_of_lt_of_le (Nat.succ_pos 364) (yearLength_pos year)⟩
  | succ fuel ih =>
    unfold yearOfDay
    by_cases hlt : day < yearLength year
    · rw [if_pos hlt]
      exact ⟨rfl, hlt⟩
    · have hpos := yearLength_pos year
      obtain ⟨hsum, hfound⟩ := ih (year + 1) (day - yearLength year) (by omega)
      rw [if_neg hlt]
      refine ⟨?_, hfound⟩
      rw [hsum, daysBefore_succ]
      omega

/-- The days before a month, from the first one of the year. -/
def daysBeforeMonth (year month : Nat) : Nat :=
  (List.range month).foldl (fun n m => n + daysInMonth year m) 0

theorem daysBeforeMonth_succ (year month : Nat) :
    daysBeforeMonth year (month + 1) = daysBeforeMonth year month + daysInMonth year month := by
  rw [daysBeforeMonth, List.range_succ, List.foldl_append]
  rfl

theorem daysBeforeMonth_year (year : Nat) : daysBeforeMonth year 13 = yearLength year := by
  have hfebruary : daysInMonth year 2 = if isLeapYear year then 29 else 28 := rfl
  have hmonths : daysBeforeMonth year 13 = 31 + daysInMonth year 2 + 306 := by
    simp only [daysBeforeMonth, List.range_succ, List.range_zero, List.nil_append, List.foldl_append,
      List.foldl_cons, List.foldl_nil]
    simp only [daysInMonth]
  rw [hmonths, hfebruary, yearLength]
  split <;> rfl

theorem monthOfDay_spec (year month day fuel : Nat) (hmonth : month + fuel = 12)
    (hday : daysBeforeMonth year month + day < yearLength year) (hpos : 1 ≤ month) :
    let found := monthOfDay year month day fuel
    daysBeforeMonth year found.1 + found.2 = daysBeforeMonth year month + day ∧
      1 ≤ found.1 ∧ found.1 ≤ 12 ∧ found.2 < daysInMonth year found.1 := by
  induction fuel generalizing month day with
  | zero =>
    obtain rfl : month = 12 := hmonth
    refine ⟨rfl, hpos, Nat.le_refl 12, ?_⟩
    have hyear := daysBeforeMonth_succ year 12
    rw [daysBeforeMonth_year] at hyear
    change day < daysInMonth year 12
    omega
  | succ fuel ih =>
    unfold monthOfDay
    by_cases hlt : day < daysInMonth year month
    · rw [if_pos hlt]
      exact ⟨rfl, hpos, by omega, hlt⟩
    · have hsucc := daysBeforeMonth_succ year month
      obtain ⟨hsum, hfound⟩ := ih (month + 1) (day - daysInMonth year month) (by omega) (by omega)
        (by omega)
      rw [if_neg hlt]
      refine ⟨?_, hfound⟩
      rw [hsum]
      omega

/-- The date of a day is a date, and the number of its day is that day's. -/
theorem civilDate_spec (days : Nat) :
    let date := civilDate days
    Backend.dayNumber date.1 date.2.1 date.2.2 = days ∧ 1 ≤ date.2.1 ∧ date.2.1 ≤ 12 ∧
      1 ≤ date.2.2 ∧ date.2.2 ≤ daysInMonth date.1 date.2.1 := by
  obtain ⟨hyear, hday⟩ := yearOfDay_spec 1970 days days (Nat.le_refl days)
  generalize hy : yearOfDay 1970 days days = found at hyear hday
  obtain ⟨year, day⟩ := found
  obtain ⟨hmonth, hpos, hle, hlt⟩ := monthOfDay_spec year 1 day 11 rfl
    (by simpa [daysBeforeMonth, daysInMonth] using hday) (Nat.le_refl 1)
  generalize hm : monthOfDay year 1 day 11 = found at hmonth hpos hle hlt
  obtain ⟨month, day'⟩ := found
  have hcivil : civilDate days = (year, month, day' + 1) := by
    rw [civilDate, hy]
    simp only [hm]
  rw [hcivil]
  refine ⟨?_, hpos, hle, Nat.succ_pos day', hlt⟩
  have hnone : daysBeforeMonth year 1 = 0 := rfl
  have hepoch : daysBefore 1970 = 719528 := rfl
  simp only [daysBefore] at hyear hepoch
  change ((365 * year + Backend.leapYearsBefore year + daysBeforeMonth year month + (day' + 1) : Nat) :
    Int) - 719529 = days
  simp only at hyear hmonth
  omega

theorem daysInMonth_le (year month : Nat) : daysInMonth year month ≤ 31 := by
  unfold daysInMonth
  split <;> try decide
  split <;> decide

theorem civilDate_year {days : Nat} (h : days < 2932897) : (civilDate days).1 < 10000 := by
  have hyear := (yearOfDay_spec 1970 days days (Nat.le_refl days)).1
  change (yearOfDay 1970 days days).1 < 10000
  have hepoch : daysBefore 1970 = 719528 := rfl
  rw [hepoch] at hyear
  by_contra hlarge
  simp only [daysBefore, Backend.leapYearsBefore] at hyear
  omega

-- ---------------------------------------------------------------------------
-- Text is read back
-- ---------------------------------------------------------------------------

theorem digitChar_toNat (n : Nat) : (digitChar n).toNat = 48 + n % 10 := by
  have hdigits : ∀ d < 10, (Char.ofNat (48 + d)).toNat = 48 + d := by decide
  exact hdigits _ (Nat.mod_lt n (by decide))

@[simp] theorem digitChar_isDigit (n : Nat) : (digitChar n).isDigit = true := by
  have hdigits : ∀ d < 10, (Char.ofNat (48 + d)).isDigit = true := by decide
  exact hdigits _ (Nat.mod_lt n (by decide))

theorem twoDigits_padded2 {n : Nat} (h : n < 100) :
    twoDigits (digitChar (n / 10)) (digitChar n) = some n := by
  rw [twoDigits, digitChar_isDigit, digitChar_isDigit, digitChar_toNat, digitChar_toNat]
  refine (if_pos rfl).trans (congrArg some ?_)
  omega

theorem isFraction_three {a b c : Char} (ha : a.isDigit = true) (hb : b.isDigit = true)
    (hc : c.isDigit = true) : isFraction [a, b, c, 'Z'] = true := by
  simp [isFraction, ha, hb, hc]

theorem fractionMs_padded3 {n : Nat} (h : n < 1000) :
    Backend.fractionMs [digitChar (n / 100), digitChar (n / 10), digitChar n, 'Z'] = n := by
  have hz : ('Z' : Char).isDigit = false := rfl
  simp only [Backend.fractionMs, List.takeWhile_cons, digitChar_isDigit, hz, if_true,
    Bool.false_eq_true, if_false, List.cons_append, List.nil_append, List.take_succ_cons,
    List.take_zero, List.foldl_cons, List.foldl_nil, digitChar_toNat]
  omega

/-- The text of a date and a time of day. -/
def instantText (year month day hours minutes seconds ms : Nat) : List Char :=
  padded2 (year / 100) ++ padded2 (year % 100) ++ '-' :: padded2 month ++ '-' :: padded2 day ++
    'T' :: padded2 hours ++ ':' :: padded2 minutes ++ ':' :: padded2 seconds ++
      '.' :: padded3 ms ++ ['Z']

section
variable {year month day hours minutes seconds ms : Nat}

theorem isDatetime_instantText (hyear : year < 10000) (hmonth : month ≤ 12) (hfirst : 1 ≤ day)
    (hday : day ≤ daysInMonth year month) (hhours : hours ≤ 23) (hminutes : minutes ≤ 59)
    (hseconds : seconds ≤ 59) :
    isDatetime (String.ofList (instantText year month day hours minutes seconds ms)) = true := by
  have hlength := daysInMonth_le year month
  have hcentury := twoDigits_padded2 (n := year / 100) (by omega)
  have hdecade := twoDigits_padded2 (n := year % 100) (by omega)
  have hmonth' := twoDigits_padded2 (n := month) (by omega)
  have hday' := twoDigits_padded2 (n := day) (by omega)
  have hhours' := twoDigits_padded2 (n := hours) (by omega)
  have hminutes' := twoDigits_padded2 (n := minutes) (by omega)
  have hseconds' := twoDigits_padded2 (n := seconds) (by omega)
  have hwhole : year / 100 * 100 + year % 100 = year := by omega
  simp [isDatetime, instantText, padded2, padded3, isDate, isSecondsZ, isFraction_three, hcentury,
    hdecade, hmonth', hday', hhours', hminutes', hseconds', hwhole, hfirst, hday, hhours, hminutes, hseconds]

theorem dateMs?_instantText (hyear : year < 10000) (hmonth : month < 100) (hday : day < 100)
    (hhours : hours < 100) (hminutes : minutes < 100) (hseconds : seconds < 100) (hms : ms < 1000) :
    Backend.dateMs? (String.ofList (instantText year month day hours minutes seconds ms)) =
      some (Backend.dayNumber year month day * 86400000 +
        (hours * 3600000 + minutes * 60000 + (seconds * 1000 + ms) : Nat)) := by
  have hcentury := twoDigits_padded2 (n := year / 100) (by omega)
  have hdecade := twoDigits_padded2 (n := year % 100) (by omega)
  have hwhole : year / 100 * 100 + year % 100 = year := by omega
  simp [Backend.dateMs?, instantText, padded2, padded3, Backend.secondsMs, fractionMs_padded3 hms,
    hcentury, hdecade, twoDigits_padded2 hmonth, twoDigits_padded2 hday, twoDigits_padded2 hhours,
    twoDigits_padded2 hminutes, twoDigits_padded2 hseconds, hwhole]

end

/-- The last instant of the year 9999 is one before this. -/
def year10000 : Nat := 253402300800000

/-- What the edge writes is a datetime for the backend's schema, and `new Date` of
it is the instant that was written. -/
theorem toISOString_read {ms : Nat} (h : ms < year10000) :
    isDatetime (toISOString ms) = true ∧ Backend.dateMs? (toISOString ms) = some (ms : Int) := by
  have hdays : ms / 86400000 < 2932897 := by
    rw [year10000] at h
    omega
  have hyear := civilDate_year hdays
  obtain ⟨hnumber, -, hmonth, hfirst, hday⟩ := civilDate_spec (ms / 86400000)
  have htext : toISOString ms = String.ofList (instantText (civilDate (ms / 86400000)).1
      (civilDate (ms / 86400000)).2.1 (civilDate (ms / 86400000)).2.2 (ms % 86400000 / 3600000)
      (ms % 86400000 / 60000 % 60) (ms % 86400000 / 1000 % 60) (ms % 86400000 % 1000)) := by
    simp only [toISOString, yearText, if_pos hyear]
    rfl
  generalize civilDate (ms / 86400000) = date at *
  obtain ⟨year, month, day⟩ := date
  simp only at hyear hnumber hmonth hfirst hday htext
  have hlength := daysInMonth_le year month
  rw [htext]
  refine ⟨isDatetime_instantText hyear hmonth hfirst hday ?_ ?_ ?_, ?_⟩
  · omega
  · omega
  · omega
  · rw [dateMs?_instantText hyear (by omega) (by omega) (by omega) (by omega) (by omega) (by omega)]
    refine congrArg some ?_
    rw [hnumber]
    omega

end Rvep
