import SchemaPlan.Decimal
import SchemaPlan.Timestamp

/-!
# Writing timestamps

`Timestamp.write` writes an instant, as in `2024-01-31T12:00:00.500Z`, with three, six or nine
digits of the second if it has a fraction; `Timestamp.writeSeconds` leaves the fraction out. A leap
second is second 60, and a year with other than four digits has a sign.
-/

namespace SchemaPlan.Timestamp

/-- A year: four digits, or a sign and at least four digits. -/
def writeYear (year : Int) : List Char :=
  if year < 0 then '-' :: Decimal.padded 4 year.natAbs
  else if year ≤ 9999 then Decimal.padded 4 year.natAbs
  else '+' :: Decimal.padded 4 year.natAbs

/-- A date: year, month and day. -/
def writeDate (d : Calendar.Date) : List Char :=
  writeYear d.year ++ '-' :: Decimal.padded 2 d.month ++ '-' :: Decimal.padded 2 d.day

/-- The time of day: hour, minute and second. -/
def writeTime (t : Timestamp) : List Char :=
  Decimal.padded 2 (t.secondOfDay / 3600) ++ ':' :: Decimal.padded 2 (t.secondOfDay / 60 % 60)
    ++ ':' :: Decimal.padded 2 (t.secondOfDay % 60 + if t.isLeap then 1 else 0)

/-- A fraction of a second in the least number of digits, by thousands, that gives it. -/
def writeFraction (nanos : Nat) : List Char :=
  if nanos = 0 then []
  else if nanos % 1000000 = 0 then '.' :: Decimal.padded 3 (nanos / 1000000)
  else if nanos % 1000 = 0 then '.' :: Decimal.padded 6 (nanos / 1000)
  else '.' :: Decimal.padded 9 nanos

/-- The characters of an instant, with or without the fraction of its second. -/
def chars (fraction : Bool) (t : Timestamp) : List Char :=
  writeDate t.date ++ 'T' :: t.writeTime
    ++ (if fraction then writeFraction (t.nanos % 1000000000) else []) ++ ['Z']

/-- An instant to the nanosecond. -/
def write (t : Timestamp) : String :=
  .ofList (t.chars true)

/-- An instant to the second. -/
def writeSeconds (t : Timestamp) : String :=
  .ofList (t.chars false)

end SchemaPlan.Timestamp
