/-!
# Decimal numerals

`digits` writes a natural number in decimal and `value?` reads a non-empty run of ASCII digits.
`IntegerRange` is a range of whole numbers, and `IntegerRange.read?` reads a numeral with an
optional sign that denotes a number of that range.
-/

namespace SchemaPlan.Decimal

/-- The ASCII digit of a number below ten. -/
def digit (n : Nat) : Char :=
  Char.ofNat ('0'.toNat + n)

/-- The number an ASCII digit stands for. -/
def digitValue (c : Char) : Nat :=
  c.toNat - '0'.toNat

/-- The decimal numeral of `n`, without leading zeros. -/
def digits (n : Nat) : List Char :=
  if n < 10 then [digit n] else digits (n / 10) ++ [digit (n % 10)]
termination_by n
decreasing_by omega

/-- The decimal numeral of `n` with zeros put in front up to `width` digits. -/
def padded (width n : Nat) : List Char :=
  let ds := digits n
  List.replicate (width - ds.length) '0' ++ ds

/-- The number a run of digits denotes. -/
def value (ds : List Char) : Nat :=
  ds.foldl (fun n c => 10 * n + digitValue c) 0

/-- The number denoted by a text of one or more ASCII digits. -/
def value? (text : List Char) : Option Nat :=
  if text ≠ [] && text.all Char.isDigit then some (value text) else none

/-- The decimal numeral of `n` as a text. -/
def ofNat (n : Nat) : String :=
  .ofList (digits n)

/-- The decimal numeral of `i` as a text, with a `-` in front of a negative number. -/
def ofInt : Int → String
  | .ofNat n => ofNat n
  | .negSucc n => .ofList ('-' :: digits (n + 1))

/-! ## Ranges of whole numbers -/

/-- The whole numbers from `least` to `greatest`; `signed` says whether a numeral may start
with `-`. -/
structure IntegerRange where
  least : Int
  greatest : Int
  signed : Bool
  deriving Repr, DecidableEq

namespace IntegerRange

/-- Numbers of `bits` bits in two's complement. -/
def ofSigned (bits : Nat) : IntegerRange :=
  let half : Int := Nat.pow 2 (bits - 1)
  ⟨-half, half - 1, true⟩

/-- Numbers of `bits` bits without a sign. -/
def ofUnsigned (bits : Nat) : IntegerRange :=
  let size : Int := Nat.pow 2 bits
  ⟨0, size - 1, false⟩

/-- Whether a number lies in the range. -/
def contains (r : IntegerRange) (i : Int) : Bool :=
  r.least ≤ i && i ≤ r.greatest

/-- The number denoted by an optional sign and one or more digits, if it is in the range. -/
def read? (r : IntegerRange) (text : List Char) : Option Int := do
  let i ←
    match text with
    | '+' :: ds => (value? ds).map Int.ofNat
    | '-' :: ds => if r.signed then (value? ds).map fun n => -Int.ofNat n else none
    | ds => (value? ds).map Int.ofNat
  if r.contains i then some i else none

end IntegerRange

end SchemaPlan.Decimal
