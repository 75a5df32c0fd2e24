/-!
# The Gregorian calendar

A `Date` is a day that exists in the Gregorian calendar, extended to all years. `Date.dayNumber`
counts the days from 1 January 1970 and `Date.ofDayNumber` is the date with a given number; the
year of a day is guessed from the mean length of a year and then moved by at most one
(`yearOfDay_bounds`), and the month is found by walking the lengths of the months
(`monthAndDay_lt`).
-/

namespace SchemaPlan.Calendar

/-- Whether a year has a 29 February. -/
def isLeap (year : Int) : Bool :=
  year % 4 = 0 && (year % 100 ≠ 0 || year % 400 = 0)

/-- The lengths of the months of a year. -/
def monthLengths (leap : Bool) : List Nat :=
  [31, if leap then 29 else 28, 31, 30, 31, 30, 31, 31, 30, 31, 30, 31]

/-- The number of days of months of the given lengths. -/
def total : List Nat → Nat
  | [] => 0
  | length :: lengths => length + total lengths

/-- The number of days from 1 January of year 1 to 1 January of `year`. -/
def daysBeforeYear (year : Int) : Int :=
  365 * (year - 1) + (year - 1) / 4 - (year - 1) / 100 + (year - 1) / 400

/-- The number of days from 1 January of year 1 to 1 January 1970. -/
def daysBeforeEpoch : Int := 719162

/-! ## Dates -/

/-- A day of the calendar; months and days count from one. -/
structure Date where
  year : Int
  month : Nat
  day : Nat
  month_pos : 0 < month
  day_pos : 0 < day
  /-- The month has the day. -/
  day_le : ∃ length, (monthLengths (isLeap year))[month - 1]? = some length ∧ day ≤ length

namespace Date

/-- The date of a year, a month and a day, if there is one. -/
def make? (year : Int) (month day : Nat) : Option Date :=
  if hm : 0 < month then
    if hd : 0 < day then
      match hl : (monthLengths (isLeap year))[month - 1]? with
      | some length =>
        if h : day ≤ length then some ⟨year, month, day, hm, hd, length, hl, h⟩ else none
      | none => none
    else none
  else none

/-- The number of days from 1 January 1970 to a date, negative before. -/
def dayNumber (d : Date) : Int :=
  daysBeforeYear d.year - daysBeforeEpoch
    + (total ((monthLengths (isLeap d.year)).take (d.month - 1)) + (d.day - 1) : Nat)

end Date

/-! ## The date of a day number -/

/-- The year of the day that has `n` days of the calendar before it. -/
def yearOfDay (n : Int) : Int :=
  let guess := 400 * n / 146097 + 1
  if n < daysBeforeYear guess then guess - 1
  else if daysBeforeYear (guess + 1) ≤ n then guess + 1
  else guess

theorem yearOfDay_bounds (n : Int) :
    daysBeforeYear (yearOfDay n) ≤ n ∧ n < daysBeforeYear (yearOfDay n + 1) := by
  unfold yearOfDay
  simp only
  split
  · rename_i h
    unfold daysBeforeYear at *
    omega
  · split
    · rename_i h h'
      unfold daysBeforeYear at *
      omega
    · omega

/-- The months before a day of a year and the days before it in its month, where `r` days of
the months that are left are before it. -/
def monthAndDay : List Nat → Nat → Nat × Nat
  | [], r => (0, r)
  | length :: lengths, r =>
    if r < length then (0, r)
    else
      let (month, day) := monthAndDay lengths (r - length)
      (month + 1, day)

theorem monthAndDay_lt {lengths : List Nat} {r : Nat} (h : r < total lengths) :
    ∃ length, lengths[(monthAndDay lengths r).1]? = some length ∧
      (monthAndDay lengths r).2 < length := by
  induction lengths generalizing r with
  | nil => simp [total] at h
  | cons l lengths ih =>
    simp only [monthAndDay]
    split
    · exact ⟨l, by simp, by simpa⟩
    · obtain ⟨length, h1, h2⟩ := ih (r := r - l) (by simp only [total] at h; omega)
      exact ⟨length, by simpa using h1, h2⟩

theorem daysBeforeYear_succ (year : Int) :
    daysBeforeYear (year + 1) =
      daysBeforeYear year + (total (monthLengths (isLeap year)) : Nat) := by
  unfold daysBeforeYear isLeap monthLengths
  by_cases h4 : year % 4 = 0 <;> by_cases h100 : year % 100 = 0 <;>
    by_cases h400 : year % 400 = 0 <;> simp [total, h4, h100, h400] <;> omega

/-- The number of days of the year before a day. -/
def dayOfYear (n : Int) : Nat :=
  (n - daysBeforeYear (yearOfDay n)).toNat

theorem dayOfYear_lt (n : Int) :
    dayOfYear n < total (monthLengths (isLeap (yearOfDay n))) := by
  have h := yearOfDay_bounds n
  rw [daysBeforeYear_succ] at h
  unfold dayOfYear
  omega

/-- The date with a given number of days from 1 January 1970. -/
def Date.ofDayNumber (number : Int) : Date :=
  let n := number + daysBeforeEpoch
  let year := yearOfDay n
  let r := monthAndDay (monthLengths (isLeap year)) (dayOfYear n)
  { year
    month := r.1 + 1
    day := r.2 + 1
    month_pos := Nat.succ_pos _
    day_pos := Nat.succ_pos _
    day_le := monthAndDay_lt (dayOfYear_lt n) }

end SchemaPlan.Calendar
