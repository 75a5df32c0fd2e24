import Mathlib.Order.Monotone.Basic
import SchemaPlan.Calendar

/-!
# Dates and their numbers

`dayNumber_ofDayNumber` : the date with a given number has this number. A date is made of its year,
month and day (`make?_self`), of which month and day have at most two digits.
-/

namespace SchemaPlan.Calendar

/-- The months before a day and the days before it in its month are all the days before it. -/
theorem total_take_monthAndDay (lengths : List Nat) (r : Nat) :
    total (lengths.take (monthAndDay lengths r).1) + (monthAndDay lengths r).2 = r := by
  induction lengths generalizing r with
  | nil => exact Nat.zero_add r
  | cons length lengths ih =>
    rw [monthAndDay]
    split
    · exact Nat.zero_add r
    · have hrest := ih (r - length)
      simp only [List.take_succ_cons, total]
      omega

/-- A later year has no fewer days before it. -/
theorem daysBeforeYear_mono {year later : Int} (h : year ≤ later) :
    daysBeforeYear year ≤ daysBeforeYear later := by
  refine monotone_int_of_le_succ (fun year => ?_) h
  rw [daysBeforeYear_succ]
  omega

theorem length_monthLengths (leap : Bool) : (monthLengths leap).length = 12 :=
  rfl

/-- No month has more than 31 days. -/
theorem le_of_mem_monthLengths {leap : Bool} {length : Nat} (h : length ∈ monthLengths leap) :
    length ≤ 31 := by
  have hall : ∀ leap, ∀ length ∈ monthLengths leap, length ≤ 31 := by decide
  exact hall leap length h

namespace Date

theorem month_le (d : Date) : d.month ≤ 12 := by
  obtain ⟨length, hlength, -⟩ := d.day_le
  have hlt := (List.getElem?_eq_some_iff.1 hlength).1
  rw [length_monthLengths] at hlt
  omega

theorem day_le_31 (d : Date) : d.day ≤ 31 := by
  obtain ⟨length, hlength, hday⟩ := d.day_le
  exact Nat.le_trans hday (le_of_mem_monthLengths (List.mem_of_getElem? hlength))

/-- Every date is the date of its year, month and day. -/
theorem make?_self (d : Date) : make? d.year d.month d.day = some d := by
  obtain ⟨length, hlength, hday⟩ := d.day_le
  unfold make?
  rw [dif_pos d.month_pos, dif_pos d.day_pos]
  split
  · rename_i found hfound
    rw [hlength, Option.some.injEq] at hfound
    rw [dif_pos (hfound ▸ hday)]
  · rename_i hnone
    rw [hlength] at hnone
    cases hnone

/-- The date of a day has the number of the day. -/
theorem dayNumber_ofDayNumber (number : Int) : (ofDayNumber number).dayNumber = number := by
  have hmonth := total_take_monthAndDay
    (monthLengths (isLeap (yearOfDay (number + daysBeforeEpoch))))
    (dayOfYear (number + daysBeforeEpoch))
  have hyear := yearOfDay_bounds (number + daysBeforeEpoch)
  simp only [dayNumber, ofDayNumber, Nat.add_sub_cancel, hmonth]
  rw [dayOfYear]
  omega

end Date

end SchemaPlan.Calendar
