import SchemaPlan.Decimal
import SchemaPlan.Text.Blank
import SchemaPlan.Timestamp

/-!
# Reading timestamps

`Timestamp.read?` reads a date, a `T`, `t` or space, a time of day and an offset from
coordinated universal time. Blanks may stand before each number and before each `-` and `:`
between them, before the offset and at the end.
-/

namespace SchemaPlan.Timestamp

/-- The number written by the digits at the start of a text, at most `width` of them, and what
follows. -/
def readNumber? (width : Nat) (text : List Char) : Option (Nat × List Char) :=
  let ds := (text.take width).takeWhile Char.isDigit
  (Decimal.value? ds).map fun n => (n, text.drop ds.length)

/-- The text after blanks and the character `c`. -/
def readMark? (c : Char) (text : List Char) : Option (List Char) :=
  match text.dropWhile Text.isBlank with
  | d :: rest => if d = c then some rest else none
  | [] => none

/-- A number of one or two digits after blanks. -/
def readTwo? (text : List Char) : Option (Nat × List Char) :=
  readNumber? 2 (text.dropWhile Text.isBlank)

/-- A year after blanks: one to four digits, or a sign and any number of digits. -/
def readYear? (text : List Char) : Option (Int × List Char) :=
  match text.dropWhile Text.isBlank with
  | '-' :: rest => (readNumber? rest.length rest).map fun (n, rest) => (-(n : Int), rest)
  | '+' :: rest => (readNumber? rest.length rest).map fun (n, rest) => ((n : Int), rest)
  | text => (readNumber? 4 text).map fun (n, rest) => ((n : Int), rest)

/-- A date: year, month and day. -/
def readDate? (text : List Char) : Option (Calendar.Date × List Char) := do
  let (year, text) ← readYear? text
  let text ← readMark? '-' text
  let (month, text) ← readTwo? text
  let text ← readMark? '-' text
  let (day, text) ← readTwo? text
  let date ← Calendar.Date.make? year month day
  return (date, text)

/-- The text after what separates a date from a time. -/
def readSeparator? : List Char → Option (List Char)
  | c :: rest => if c = 'T' || c = 't' || c = ' ' then some rest else none
  | [] => none

/-- A time of day: the seconds before it, a leap second counting with the second before it, and
whether it is in a leap second. -/
def readTime? (text : List Char) : Option ((Nat × Bool) × List Char) := do
  let (hour, text) ← readTwo? text
  let text ← readMark? ':' text
  let (minute, text) ← readTwo? text
  let text ← readMark? ':' text
  let (second, text) ← readTwo? text
  if hour < 24 ∧ minute < 60 ∧ second ≤ 60 then
    return ((3600 * hour + 60 * minute + min second 59, second = 60), text)
  else none

/-- The nanoseconds of an optional fraction; digits after the ninth do not count. -/
def readFraction? : List Char → Option (Nat × List Char)
  | '.' :: text =>
    let ds := text.takeWhile Char.isDigit
    if ds = [] then none
    else
      let nine := ds.take 9
      some (Decimal.value nine * Nat.pow 10 (9 - nine.length), text.drop ds.length)
  | text => some (0, text)

/-- The sign of an offset, whether it is west, and what follows. -/
def readSign? : List Char → Option (Bool × List Char)
  | c :: rest =>
    if c = '+' then some (false, rest)
    else if c = '-' || c = '\u2212' then some (true, rest)
    else none
  | [] => none

/-- A number of exactly two digits. -/
def readPair? : List Char → Option (Nat × List Char)
  | c :: d :: rest =>
    if c.isDigit && d.isDigit then some (Decimal.value [c, d], rest) else none
  | _ => none

/-- An offset in hours and minutes, in seconds to the east. -/
def readHours? (text : List Char) : Option (Int × List Char) := do
  let (west, text) ← readSign? text
  let (hours, text) ← readPair? text
  let (minutes, text) ← readPair? (text.dropWhile fun c => c = ':' || Text.isBlank c)
  if minutes < 60 ∧ hours < 24 then
    let seconds : Int := 3600 * hours + 60 * minutes
    return (if west then -seconds else seconds, text)
  else none

/-- An offset from coordinated universal time, in seconds to the east. -/
def readOffset? (text : List Char) : Option (Int × List Char) :=
  if (text.take 3).map Char.toUpper = ['U', 'T', 'C'] then some (0, text.drop 3)
  else
    match text with
    | 'Z' :: rest => some (0, rest)
    | 'z' :: rest => some (0, rest)
    | text => readHours? text

/-- The first and the last year there are timestamps for. -/
def years : Int × Int := (-262143, 262142)

/-- The instant that a text gives. -/
def ofChars? (text : List Char) : Option Timestamp := do
  let (date, text) ← readDate? text
  let text ← readSeparator? text
  let ((seconds, leap), text) ← readTime? text
  let (nanos, text) ← readFraction? text
  let (offset, text) ← readOffset? (text.dropWhile Text.isBlank)
  if text.all Text.isBlank ∧ years.1 ≤ date.year ∧ date.year ≤ years.2 then
    make? (date.dayNumber * 86400 + seconds - offset) (nanos + if leap then 1000000000 else 0)
  else none

/-- The instant that a text gives. -/
def read? (text : String) : Option Timestamp :=
  ofChars? text.toList

end SchemaPlan.Timestamp
