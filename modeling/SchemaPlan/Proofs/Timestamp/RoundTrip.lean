import SchemaPlan.Proofs.Calendar
import SchemaPlan.Proofs.Decimal
import SchemaPlan.Proofs.Text.Blank
import SchemaPlan.Timestamp.Reader
import SchemaPlan.Timestamp.Writer

/-!
# Timestamps read back

`ofChars?_chars` : what is written of an instant is read as the instant, or as its second if the
fraction is left out, but a leap second that does not end a minute is read as the second after it.
Each reader of a part takes what the writer of the part has put in front of a text; a number ends
where no digit follows. An instant and the instant as it is read have one text (`chars_asRead`), so
it is enough to read back leap seconds that end minutes, and a text gives no others
(`leapEndsMinute_of_read?`).
-/

namespace SchemaPlan.Timestamp

open Calendar

/-! ## Numbers and marks -/

/-- The text does not go on with a digit. -/
def EndsNumber (text : List Char) : Prop :=
  ∀ c ∈ text.head?, c.isDigit = false

theorem endsNumber_cons {c : Char} (text : List Char) (hc : c.isDigit = false) :
    EndsNumber (c :: text) := by
  rintro d hd
  rwa [← Option.some.inj hd]

theorem EndsNumber.take {text : List Char} (h : EndsNumber text) (n : Nat) :
    EndsNumber (text.take n) := by
  intro c hc
  rw [List.head?_take] at hc
  split at hc
  · cases hc
  · exact h c hc

/-- Digits are taken up to where the number ends. -/
theorem takeWhile_isDigit_append {ds text : List Char} (hds : ∀ c ∈ ds, c.isDigit = true)
    (htext : EndsNumber text) : (ds ++ text).takeWhile Char.isDigit = ds := by
  have hnone : text.takeWhile Char.isDigit = [] := by
    cases text with
    | nil => rfl
    | cons c text => exact List.takeWhile_cons_of_neg (by simpa using htext c rfl)
  rw [List.takeWhile_append_of_pos hds, hnone, List.append_nil]

/-- Digits have a value, if there are some. -/
theorem value?_of_digits {ds : List Char} (hne : ds ≠ []) (hds : ∀ c ∈ ds, c.isDigit = true) :
    Decimal.value? ds = some (Decimal.value ds) := by
  rw [Decimal.value?, List.all_eq_true.2 hds, decide_eq_true hne]
  rfl

/-- Digits in front of a text are read if there are not too many of them. -/
theorem readNumber?_append {width : Nat} {ds text : List Char} (hne : ds ≠ [])
    (hds : ∀ c ∈ ds, c.isDigit = true) (hwidth : ds.length ≤ width) (htext : EndsNumber text) :
    readNumber? width (ds ++ text) = some (Decimal.value ds, text) := by
  have hfront : ((ds ++ text).take width).takeWhile Char.isDigit = ds := by
    rw [List.take_append, List.take_of_length_le hwidth,
      takeWhile_isDigit_append hds (htext.take _)]
  rw [readNumber?, hfront, value?_of_digits hne hds, Option.map_some, List.drop_left]

/-- A number that fits its width is read back, with the text after it. -/
theorem readNumber?_padded {width n : Nat} {text : List Char} (hwidth : 0 < width)
    (hn : n < 10 ^ width) (htext : EndsNumber text) :
    readNumber? width (Decimal.padded width n ++ text) = some (n, text) := by
  rw [readNumber?_append (Decimal.padded_ne_nil width n) (fun _ => Decimal.isDigit_of_mem_padded)
    (Decimal.length_padded hwidth hn).le htext, Decimal.value_padded]

theorem isBlank_of_isDigit {c : Char} (h : c.isDigit = true) : Text.isBlank c = false :=
  Text.isBlank_of_isAlphanum (by rw [Char.isAlphanum, h, Bool.or_true])

theorem exists_padded_eq_cons (width n : Nat) :
    ∃ d ds, Decimal.padded width n = d :: ds ∧ d.isDigit = true := by
  cases hds : Decimal.padded width n with
  | nil => exact absurd hds (Decimal.padded_ne_nil width n)
  | cons d ds =>
    exact ⟨d, ds, rfl, Decimal.isDigit_of_mem_padded (hds ▸ List.mem_cons_self (a := d) (l := ds))⟩

/-- A numeral does not start with a blank. -/
theorem dropWhile_isBlank_padded (width n : Nat) (text : List Char) :
    (Decimal.padded width n ++ text).dropWhile Text.isBlank = Decimal.padded width n ++ text := by
  obtain ⟨d, ds, hds, hdigit⟩ := exists_padded_eq_cons width n
  rw [hds, List.cons_append, List.dropWhile_cons_of_neg (by simp [isBlank_of_isDigit hdigit])]

theorem readTwo?_padded {n : Nat} (hn : n < 100) {text : List Char} (htext : EndsNumber text) :
    readTwo? (Decimal.padded 2 n ++ text) = some (n, text) := by
  rw [readTwo?, dropWhile_isBlank_padded, readNumber?_padded (by decide) hn htext]

theorem readMark?_cons {c : Char} (hc : Text.isBlank c = false) (text : List Char) :
    readMark? c (c :: text) = some text := by
  have hdrop : (c :: text).dropWhile Text.isBlank = c :: text :=
    List.dropWhile_cons_of_neg (by simp [hc])
  rw [readMark?, hdrop]
  exact if_pos rfl

/-! ## Dates -/

/-- A year without a sign is read up to its fourth digit. -/
theorem readYear?_of_isDigit {d : Char} (hd : d.isDigit = true) (text : List Char) :
    readYear? (d :: text) = (readNumber? 4 (d :: text)).map fun (n, rest) => ((n : Int), rest) := by
  have hdrop : (d :: text).dropWhile Text.isBlank = d :: text :=
    List.dropWhile_cons_of_neg (by simp [isBlank_of_isDigit hd])
  rw [readYear?, hdrop]
  split
  · rename_i h
    obtain ⟨rfl, -⟩ := List.cons.inj h
    cases hd
  · rename_i h
    obtain ⟨rfl, -⟩ := List.cons.inj h
    cases hd
  · rfl

/-- A year is read back, also one that is written with its sign. -/
theorem readYear?_writeYear (year : Int) {text : List Char} (htext : EndsNumber text) :
    readYear? (writeYear year ++ text) = some (year, text) := by
  have hsigned : readNumber? (Decimal.padded 4 year.natAbs ++ text).length
      (Decimal.padded 4 year.natAbs ++ text) = some (year.natAbs, text) := by
    rw [readNumber?_append (Decimal.padded_ne_nil 4 _) (fun _ => Decimal.isDigit_of_mem_padded)
      (by simp) htext, Decimal.value_padded]
  unfold writeYear
  split
  · rename_i hneg
    have hread : readYear? ('-' :: (Decimal.padded 4 year.natAbs ++ text)) =
        (readNumber? (Decimal.padded 4 year.natAbs ++ text).length
          (Decimal.padded 4 year.natAbs ++ text)).map fun (n, rest) => (-(n : Int), rest) := rfl
    rw [List.cons_append, hread, hsigned, Option.map_some]
    simp only [Option.some.injEq, Prod.mk.injEq, and_true]
    omega
  · split
    · rename_i hneg hshort
      have hlt : year.natAbs < 10 ^ 4 := by omega
      obtain ⟨d, ds, hds, hdigit⟩ := exists_padded_eq_cons 4 year.natAbs
      have hnumber := readNumber?_padded (by decide) hlt htext
      rw [hds, List.cons_append] at hnumber ⊢
      rw [readYear?_of_isDigit hdigit, hnumber, Option.map_some]
      simp only [Option.some.injEq, Prod.mk.injEq, and_true]
      omega
    · rename_i hneg hlong
      have hread : readYear? ('+' :: (Decimal.padded 4 year.natAbs ++ text)) =
          (readNumber? (Decimal.padded 4 year.natAbs ++ text).length
            (Decimal.padded 4 year.natAbs ++ text)).map fun (n, rest) => ((n : Int), rest) := rfl
      rw [List.cons_append, hread, hsigned, Option.map_some]
      simp only [Option.some.injEq, Prod.mk.injEq, and_true]
      omega

/-- A date is read back. -/
theorem readDate?_writeDate (d : Date) {text : List Char} (htext : EndsNumber text) :
    readDate? (writeDate d ++ text) = some (d, text) := by
  have hmonth := d.month_le
  have hday := d.day_le_31
  have hdraft : writeDate d ++ text = writeYear d.year ++ ('-' :: (Decimal.padded 2 d.month
      ++ ('-' :: (Decimal.padded 2 d.day ++ text)))) := by
    simp [writeDate]
  have hdash : ∀ text, EndsNumber ('-' :: text) := fun text => endsNumber_cons text rfl
  have hmark : ∀ text, readMark? '-' ('-' :: text) = some text := readMark?_cons rfl
  rw [hdraft, readDate?, readYear?_writeYear _ (hdash _)]
  simp only [Option.bind_eq_bind, Option.bind_some, hmark,
    readTwo?_padded (show d.month < 100 by omega) (hdash _),
    readTwo?_padded (show d.day < 100 by omega) htext, d.make?_self, Option.pure_def]

/-! ## Times of day -/

theorem secondOfDay_lt (t : Timestamp) : t.secondOfDay < 86400 := by
  unfold secondOfDay
  omega

/-- A leap second that ends a minute follows the last second of it in its day. -/
theorem LeapEndsMinute.secondOfDay {t : Timestamp} (h : t.LeapEndsMinute)
    (hleap : t.isLeap = true) : t.secondOfDay % 60 = 59 := by
  have hminute := h hleap
  unfold Timestamp.secondOfDay
  omega

/-- The time of day is read as its second, and as a leap second if it is one. -/
theorem readTime?_writeTime {t : Timestamp} (h : t.LeapEndsMinute) {text : List Char}
    (htext : EndsNumber text) :
    readTime? (t.writeTime ++ text) = some ((t.secondOfDay, t.isLeap), text) := by
  have hday := t.secondOfDay_lt
  have hdraft : t.writeTime ++ text = Decimal.padded 2 (t.secondOfDay / 3600) ++
      (':' :: (Decimal.padded 2 (t.secondOfDay / 60 % 60) ++
        (':' :: (Decimal.padded 2 (t.secondOfDay % 60 + if t.isLeap then 1 else 0) ++
          text)))) := by
    simp [writeTime]
  have hcolon : ∀ text, EndsNumber (':' :: text) := fun text => endsNumber_cons text rfl
  have hmark : ∀ text, readMark? ':' (':' :: text) = some text := readMark?_cons rfl
  have hsecond : (t.secondOfDay % 60 + if t.isLeap then 1 else 0) ≤ 60 := by
    split <;> omega
  rw [hdraft, readTime?]
  simp only [Option.bind_eq_bind, Option.bind_some, hmark,
    readTwo?_padded (show t.secondOfDay / 3600 < 100 by omega) (hcolon _),
    readTwo?_padded (show t.secondOfDay / 60 % 60 < 100 by omega) (hcolon _),
    readTwo?_padded (Nat.lt_of_le_of_lt hsecond (by decide)) htext, Option.pure_def]
  rw [if_pos ⟨by omega, by omega, hsecond⟩]
  cases hleap : t.isLeap with
  | true =>
    have hlast := h.secondOfDay hleap
    simp only [if_true, Option.some.injEq, Prod.mk.injEq, and_true, hlast, decide_true]
    omega
  | false =>
    simp only [Bool.false_eq_true, if_false, Option.some.injEq, Prod.mk.injEq, and_true,
      decide_eq_false_iff_not]
    omega

/-! ## Fractions -/

/-- Up to nine digits of a fraction give its nanoseconds. -/
theorem readFraction?_padded {width n : Nat} (hwidth : 0 < width) (hnine : width ≤ 9)
    (hn : n < 10 ^ width) {text : List Char} (htext : EndsNumber text) :
    readFraction? ('.' :: (Decimal.padded width n ++ text)) =
      some (n * 10 ^ (9 - width), text) := by
  have hlength := Decimal.length_padded hwidth hn
  have hdigits : (Decimal.padded width n ++ text).takeWhile Char.isDigit =
      Decimal.padded width n :=
    takeWhile_isDigit_append (fun _ => Decimal.isDigit_of_mem_padded) htext
  have hdrop : (Decimal.padded width n ++ text).drop width = text := by
    rw [List.drop_append_of_le_length hlength.ge, List.drop_of_length_le hlength.le,
      List.nil_append]
  simp only [readFraction?, hdigits, if_neg (Decimal.padded_ne_nil width n),
    List.take_of_length_le (hlength.trans_le hnine), Decimal.value_padded, hlength, hdrop]
  rfl

/-- A fraction of a second is read back, also where it is left out. -/
theorem readFraction?_writeFraction {nanos : Nat} (h : nanos < 1000000000) (text : List Char) :
    readFraction? (writeFraction nanos ++ 'Z' :: text) = some (nanos, 'Z' :: text) := by
  have hend : EndsNumber ('Z' :: text) := endsNumber_cons text rfl
  unfold writeFraction
  split
  · rename_i hzero
    rw [hzero]
    rfl
  · split
    · rename_i hmillis
      rw [List.cons_append, readFraction?_padded (by decide) (by decide) (by omega) hend]
      simp only [Option.some.injEq, Prod.mk.injEq, and_true]
      omega
    · split
      · rename_i hmicros
        rw [List.cons_append, readFraction?_padded (by decide) (by decide) (by omega) hend]
        simp only [Option.some.injEq, Prod.mk.injEq, and_true]
        omega
      · rw [List.cons_append, readFraction?_padded (by decide) (by decide) (by omega) hend]
        simp only [Option.some.injEq, Prod.mk.injEq, and_true]
        omega

theorem endsNumber_writeFraction (nanos : Nat) (text : List Char) :
    EndsNumber (writeFraction nanos ++ 'Z' :: text) := by
  unfold writeFraction
  split
  · exact endsNumber_cons _ rfl
  · split
    · exact endsNumber_cons _ rfl
    · split
      · exact endsNumber_cons _ rfl
      · exact endsNumber_cons _ rfl

/-! ## Instants -/

/-- The year of an instant is one that timestamps have. -/
theorem year_bounds (t : Timestamp) : years.1 ≤ t.date.year ∧ t.date.year ≤ years.2 := by
  have hseconds := t.seconds_bounds
  have hyear : daysBeforeYear t.date.year ≤ t.seconds / 86400 + daysBeforeEpoch ∧
      t.seconds / 86400 + daysBeforeEpoch < daysBeforeYear (t.date.year + 1) :=
    yearOfDay_bounds (t.seconds / 86400 + daysBeforeEpoch)
  have hfirst : daysBeforeYear years.1 = -95746130 := by decide
  have hlast : daysBeforeYear (years.2 + 1) = 95745399 := by decide
  unfold daysBeforeEpoch at hyear
  constructor
  · by_contra hlt
    have hle := daysBeforeYear_mono (show t.date.year + 1 ≤ years.1 by omega)
    omega
  · by_contra hlt
    have hle := daysBeforeYear_mono (show years.2 + 1 ≤ t.date.year by omega)
    omega

/-- A timestamp is made of its seconds and nanoseconds. -/
theorem make?_self (t : Timestamp) : make? t.seconds t.nanos = some t := by
  rw [make?, dif_pos ⟨t.seconds_bounds, t.nanos_lt⟩]

/-- The number of a second is read off its day and its place in the day. -/
theorem seconds_eq (t : Timestamp) : t.date.dayNumber * 86400 + t.secondOfDay = t.seconds := by
  rw [date, Date.dayNumber_ofDayNumber, secondOfDay]
  omega

/-- A leap second counts as the nanoseconds of a second more. -/
theorem nanos_wholeSeconds (t : Timestamp) :
    t.wholeSeconds.nanos = if t.isLeap then 1000000000 else 0 := rfl

/-- The nanoseconds of an instant are those of its second and those of the fraction. -/
theorem nanos_eq (t : Timestamp) : t.nanos % 1000000000 + t.wholeSeconds.nanos = t.nanos := by
  have hlt := t.nanos_lt
  simp only [nanos_wholeSeconds, isLeap, decide_eq_true_eq]
  split <;> omega

section

variable {t : Timestamp} (h : t.LeapEndsMinute)

include h

/-- The reading of an instant whose fraction is written with `nanos` nanoseconds. -/
theorem ofChars?_append {nanos : Nat} (hnanos : nanos < 1000000000) :
    ofChars? (writeDate t.date ++ 'T' :: t.writeTime ++ writeFraction nanos ++ ['Z']) =
      make? t.seconds (nanos + t.wholeSeconds.nanos) := by
  have hdraft : writeDate t.date ++ 'T' :: t.writeTime ++ writeFraction nanos ++ ['Z'] =
      writeDate t.date ++ ('T' :: (t.writeTime ++ (writeFraction nanos ++ ['Z']))) := by
    simp
  have hseparator : ∀ text, readSeparator? ('T' :: text) = some text := fun _ => rfl
  have hoffset : readOffset? (['Z'].dropWhile Text.isBlank) = some (0, []) := rfl
  rw [hdraft, ofChars?, readDate?_writeDate _ (endsNumber_cons _ rfl)]
  simp only [Option.bind_eq_bind, Option.bind_some, hseparator,
    readTime?_writeTime h (endsNumber_writeFraction nanos []), readFraction?_writeFraction hnanos,
    hoffset]
  rw [if_pos ⟨rfl, t.year_bounds.1, t.year_bounds.2⟩, Int.sub_zero, seconds_eq]
  rfl

/-- What is written of an instant whose leap second ends a minute is read as the instant, or as its
second if the fraction is left out. -/
theorem LeapEndsMinute.ofChars?_chars (fraction : Bool) :
    ofChars? (t.chars fraction) = some (if fraction then t else t.wholeSeconds) := by
  cases fraction with
  | true =>
    rw [chars, if_pos rfl, ofChars?_append h (Nat.mod_lt _ (by decide)), nanos_eq, make?_self]
    rfl
  | false =>
    have hchars : t.chars false =
        writeDate t.date ++ 'T' :: t.writeTime ++ writeFraction 0 ++ ['Z'] := rfl
    rw [hchars, ofChars?_append h (by decide), Nat.zero_add]
    exact make?_self t.wholeSeconds

end

/-! ## Instants as they are read -/

/-- A leap second that ends a minute is read as itself. -/
theorem LeapEndsMinute.asRead_eq {t : Timestamp} (h : t.LeapEndsMinute) : t.asRead = t :=
  dif_pos h

/-- A leap second that does not end a minute. -/
theorem not_leapEndsMinute_iff {t : Timestamp} :
    ¬t.LeapEndsMinute ↔ 1000000000 ≤ t.nanos ∧ t.seconds % 60 ≠ 59 := by
  rw [LeapEndsMinute, isLeap, decide_eq_true_iff, Classical.not_imp]

section

variable {t : Timestamp} (h : ¬t.LeapEndsMinute)

include h

/-- Another leap second is read as the second after it. -/
theorem seconds_asRead : t.asRead.seconds = t.seconds + 1 := by
  rw [asRead, dif_neg h]

/-- The fraction of the leap second is kept. -/
theorem nanos_asRead : t.asRead.nanos = t.nanos - 1000000000 := by
  rw [asRead, dif_neg h]

/-- A leap second that does not end a minute is not read as a leap second. -/
theorem isLeap_asRead : t.asRead.isLeap = false := by
  have hlt := t.nanos_lt
  rw [isLeap, nanos_asRead h, decide_eq_false_iff_not]
  omega

end

/-- Reading gives leap seconds only at the ends of minutes. -/
theorem leapEndsMinute_asRead (t : Timestamp) : t.asRead.LeapEndsMinute := by
  by_cases h : t.LeapEndsMinute
  · rwa [h.asRead_eq]
  · intro hleap
    rw [isLeap_asRead h] at hleap
    cases hleap

/-- Read as themselves are just the instants without a leap second inside a minute. -/
theorem asRead_eq_self_iff {t : Timestamp} : t.asRead = t ↔ t.LeapEndsMinute :=
  ⟨fun h => h ▸ t.leapEndsMinute_asRead, LeapEndsMinute.asRead_eq⟩

theorem isLeap_wholeSeconds (t : Timestamp) : t.wholeSeconds.isLeap = t.isLeap := by
  rw [isLeap, nanos_wholeSeconds]
  cases t.isLeap <;> rfl

/-- An instant lies in the leap second that its second is. -/
theorem leapEndsMinute_wholeSeconds {t : Timestamp} :
    t.wholeSeconds.LeapEndsMinute ↔ t.LeapEndsMinute := by
  rw [LeapEndsMinute, LeapEndsMinute, isLeap_wholeSeconds]
  rfl

/-- The second of an instant is read as the second of the instant as it is read. -/
theorem wholeSeconds_asRead (t : Timestamp) : t.asRead.wholeSeconds = t.wholeSeconds.asRead := by
  by_cases h : t.LeapEndsMinute
  · rw [h.asRead_eq, (leapEndsMinute_wholeSeconds.2 h).asRead_eq]
  · have hwhole : ¬t.wholeSeconds.LeapEndsMinute := leapEndsMinute_wholeSeconds.not.2 h
    have hleap : t.isLeap = true := decide_eq_true (not_leapEndsMinute_iff.1 h).1
    ext
    · rw [seconds_asRead hwhole]
      exact seconds_asRead h
    · rw [nanos_asRead hwhole]
      simp only [nanos_wholeSeconds, isLeap_asRead h, hleap, if_true, Bool.false_eq_true, if_false,
        Nat.sub_self]

/-- An instant and the instant as it is read have one text. -/
theorem chars_asRead (fraction : Bool) (t : Timestamp) : t.asRead.chars fraction =
    t.chars fraction := by
  by_cases h : t.LeapEndsMinute
  · rw [h.asRead_eq]
  · obtain ⟨hnanos, hminute⟩ := not_leapEndsMinute_iff.1 h
    have hleap : t.isLeap = true := decide_eq_true hnanos
    have hdate : t.asRead.date = t.date := by
      rw [date, date, seconds_asRead h]
      congr 1
      omega
    have hday : t.asRead.secondOfDay = t.secondOfDay + 1 := by
      rw [secondOfDay, secondOfDay, seconds_asRead h]
      omega
    have hlast : t.secondOfDay % 60 ≠ 59 := by
      unfold secondOfDay
      omega
    have hhours : (t.secondOfDay + 1) / 3600 = t.secondOfDay / 3600 := by omega
    have hminutes : (t.secondOfDay + 1) / 60 = t.secondOfDay / 60 := by omega
    have hseconds : (t.secondOfDay + 1) % 60 = t.secondOfDay % 60 + 1 := by omega
    have htime : t.asRead.writeTime = t.writeTime := by
      simp only [writeTime, hday, isLeap_asRead h, hleap, hhours, hminutes, hseconds, if_true,
        Bool.false_eq_true, if_false, Nat.add_zero]
    have hfraction : t.asRead.nanos % 1000000000 = t.nanos % 1000000000 := by
      rw [nanos_asRead h]
      omega
    rw [chars, chars, hdate, htime, hfraction]

/-- What is written of an instant is read as the instant is read, or as its second if the fraction
is left out. -/
theorem ofChars?_chars (fraction : Bool) (t : Timestamp) :
    ofChars? (t.chars fraction) =
      some (if fraction then t.asRead else t.wholeSeconds.asRead) := by
  rw [← chars_asRead, t.leapEndsMinute_asRead.ofChars?_chars, wholeSeconds_asRead]

/-- A timestamp is read back, but a leap second inside a minute as the second after it. -/
theorem read?_write (t : Timestamp) : read? t.write = some t.asRead := by
  rw [read?, write, String.toList_ofList, ofChars?_chars, if_pos rfl]

/-- What is written without a fraction is read as the whole second is. -/
theorem read?_writeSeconds (t : Timestamp) : read? t.writeSeconds = some t.wholeSeconds.asRead := by
  rw [read?, writeSeconds, String.toList_ofList, ofChars?_chars, if_neg Bool.false_ne_true]

/-! ## What a text gives -/

/-- A leap second is written as second 60, so it counts with the last second of its minute. -/
theorem second_of_readTime? {text rest : List Char} {second : Nat}
    (h : readTime? text = some ((second, true), rest)) : second % 60 = 59 := by
  simp only [readTime?, Option.bind_eq_bind, Option.bind_eq_some_iff] at h
  obtain ⟨_, _, _, _, _, _, _, _, ⟨last, _⟩, _, h⟩ := h
  split at h
  · simp only [Option.pure_def, Option.some.injEq, Prod.mk.injEq, decide_eq_true_eq] at h
    omega
  · cases h

/-- Up to nine digits of a fraction give less than a second. -/
theorem value_mul_pow_lt {ds : List Char} (hds : ∀ c ∈ ds, c.isDigit = true)
    (hlength : ds.length ≤ 9) : Decimal.value ds * 10 ^ (9 - ds.length) < 1000000000 := by
  have hvalue := Decimal.value_lt hds
  have hnine : 10 ^ 9 = 1000000000 := by norm_num
  calc Decimal.value ds * 10 ^ (9 - ds.length)
      < 10 ^ ds.length * 10 ^ (9 - ds.length) :=
        Nat.mul_lt_mul_of_pos_right hvalue (Nat.pow_pos (by decide))
    _ = 1000000000 := by rw [← Nat.pow_add, Nat.add_sub_of_le hlength, hnine]

/-- A fraction is less than a second. -/
theorem nanos_of_readFraction? {text rest : List Char} {nanos : Nat}
    (h : readFraction? text = some (nanos, rest)) : nanos < 1000000000 := by
  unfold readFraction? at h
  split at h
  · rename_i digits
    simp only at h
    split at h
    · cases h
    · obtain ⟨rfl, -⟩ := Prod.mk.inj (Option.some.inj h)
      exact value_mul_pow_lt
        (fun c hc => List.mem_takeWhile_imp (List.mem_of_mem_take hc)) (List.length_take_le 9 _)
  · obtain ⟨rfl, -⟩ := Prod.mk.inj (Option.some.inj h)
    exact Nat.zero_lt_succ _

/-- Offsets are whole minutes. -/
theorem offset_of_readOffset? {text rest : List Char} {offset : Int}
    (h : readOffset? text = some (offset, rest)) : offset % 60 = 0 := by
  unfold readOffset? at h
  split at h
  · obtain ⟨rfl, -⟩ := Prod.mk.inj (Option.some.inj h)
    rfl
  · split at h
    · obtain ⟨rfl, -⟩ := Prod.mk.inj (Option.some.inj h)
      rfl
    · obtain ⟨rfl, -⟩ := Prod.mk.inj (Option.some.inj h)
      rfl
    · simp only [readHours?, Option.bind_eq_bind, Option.bind_eq_some_iff] at h
      obtain ⟨⟨west, _⟩, _, ⟨hours, _⟩, _, ⟨minutes, _⟩, _, h⟩ := h
      split at h
      · simp only [Option.pure_def, Option.some.injEq, Prod.mk.injEq] at h
        obtain ⟨rfl, -⟩ := h
        split <;> omega
      · cases h

/-- What is made has the seconds and the nanoseconds that it is made of. -/
theorem eq_of_make? {seconds : Int} {nanos : Nat} {t : Timestamp}
    (h : make? seconds nanos = some t) : t.seconds = seconds ∧ t.nanos = nanos := by
  unfold make? at h
  split at h
  · obtain rfl := Option.some.inj h
    exact ⟨rfl, rfl⟩
  · cases h

/-- No text gives a leap second that does not end a minute. -/
theorem leapEndsMinute_of_read? {text : String} {t : Timestamp} (h : read? text = some t) :
    t.LeapEndsMinute := by
  simp only [read?, ofChars?, Option.bind_eq_bind, Option.bind_eq_some_iff] at h
  obtain ⟨⟨date, _⟩, _, _, _, ⟨⟨second, leap⟩, _⟩, htime, ⟨nanos, _⟩, hfraction, ⟨offset, _⟩,
    hoffset, h⟩ := h
  have hnanos := nanos_of_readFraction? hfraction
  have hminutes := offset_of_readOffset? hoffset
  split at h
  · obtain ⟨hseconds, hleap⟩ := eq_of_make? h
    intro hisLeap
    rw [isLeap, decide_eq_true_eq] at hisLeap
    cases leap with
    | true =>
      have hlast := second_of_readTime? htime
      simp only at hseconds
      omega
    | false =>
      simp only [Bool.false_eq_true, if_false] at hleap
      omega
  · cases h

end SchemaPlan.Timestamp
