import SchemaPlan.Calendar

/-!
# Timestamps

A `Timestamp` is an instant in coordinated universal time to the nanosecond, as seconds from
1 January 1970 and nanoseconds. A leap second has no number of its own: it is the second before
it with 10^9 or more nanoseconds, and it may follow any second. Only one that ends a minute has a
text of its own; any other has the text of the second after it, and `Timestamp.asRead` is the
instant that this text gives. The years are -262143 to 262142.
-/

namespace SchemaPlan

/-- An instant, in years -262143 to 262142. -/
@[ext]
structure Timestamp where
  seconds : Int
  nanos : Nat
  seconds_bounds : -8334601228800 ≤ seconds ∧ seconds ≤ 8210266876799
  nanos_lt : nanos < 2000000000
  deriving DecidableEq

namespace Timestamp

/-- The instant of seconds and nanoseconds, if there is one. -/
def make? (seconds : Int) (nanos : Nat) : Option Timestamp :=
  if h : (-8334601228800 ≤ seconds ∧ seconds ≤ 8210266876799) ∧ nanos < 2000000000 then
    some ⟨seconds, nanos, h.1, h.2⟩
  else none

/-- The start of 1 January 1970. -/
def epoch : Timestamp :=
  ⟨0, 0, by decide, by decide⟩

/-- Whether an instant lies in a leap second. -/
def isLeap (t : Timestamp) : Bool :=
  1000000000 ≤ t.nanos

/-- The start of the second, or leap second, of an instant. -/
def wholeSeconds (t : Timestamp) : Timestamp :=
  { t with
    nanos := if t.isLeap then 1000000000 else 0
    nanos_lt := by split <;> decide }

/-- The day of an instant. -/
def date (t : Timestamp) : Calendar.Date :=
  .ofDayNumber (t.seconds / 86400)

/-- The seconds of its day before an instant; a leap second counts with the second before it. -/
def secondOfDay (t : Timestamp) : Nat :=
  (t.seconds % 86400).toNat

/-- An instant that does not lie in a leap second, or in one that ends a minute. -/
def LeapEndsMinute (t : Timestamp) : Prop :=
  t.isLeap = true → t.seconds % 60 = 59

instance (t : Timestamp) : Decidable t.LeapEndsMinute :=
  inferInstanceAs (Decidable (t.isLeap = true → t.seconds % 60 = 59))

/-- The instant that the text of an instant gives: for a leap second that does not end a minute, the
second after it. -/
def asRead (t : Timestamp) : Timestamp :=
  if h : t.LeapEndsMinute then t
  else
    { seconds := t.seconds + 1
      nanos := t.nanos - 1000000000
      -- the last second that there is ends a minute
      seconds_bounds := by have := t.seconds_bounds; unfold LeapEndsMinute at h; omega
      nanos_lt := by have := t.nanos_lt; omega }

end Timestamp

end SchemaPlan
