import Mathlib.Data.List.Forall2
import SchemaPlan.Ddl.Reader

/-!
# Split points in statements

The statement that creates a table holds its split points as tuples of values.
`Ddl.createdSettings?` finds the settings of such a statement, whatever the types of its columns
look like, and `Ddl.tuples?` takes a list of tuples apart. `Column.HasValue` says which value of the
type of a column a literal stands for, and `Table.HasTuple` says it of the literals of a split
point, by the columns of the key.
-/

namespace SchemaPlan

namespace Ddl

/-! ## Tuples in statements -/

/-- What follows the first line that starts with a bracket that closes. -/
def afterBody? (ps : List Piece) : Option (List Piece) :=
  ps.tails.findSome? (afterWord? "\n)")

/-- The settings of the statement that creates a table: they follow its body, in which every line
starts with a tab. -/
def createdSettings? (statement : String) : Option (List (String × List Piece)) := do
  readSettings? (← afterBody? (← regions? statement))

/-- The values in each tuple of a list of tuples. -/
def tuples? (ps : List Piece) : Option (List (List (List Piece))) := do
  (← grouped? ps).mapM grouped?

/-! ## Integers -/

/-- A name of a type of integers, whether it has negative numbers, and its least and greatest
number. -/
inductive IsIntegerType : String → Bool → Int → Int → Prop
  | int8 : IsIntegerType "Int8" true (-128) 127
  | int16 : IsIntegerType "Int16" true (-32768) 32767
  | int32 : IsIntegerType "Int32" true (-2147483648) 2147483647
  | int64 : IsIntegerType "Int64" true (-9223372036854775808) 9223372036854775807
  | uint8 : IsIntegerType "Uint8" false 0 255
  | uint16 : IsIntegerType "Uint16" false 0 65535
  | uint32 : IsIntegerType "Uint32" false 0 4294967295
  | uint64 : IsIntegerType "Uint64" false 0 18446744073709551615

/-- One or more ASCII digits. -/
def IsNumeral (text : List Char) : Prop :=
  text ≠ [] ∧ ∀ c ∈ text, '0' ≤ c ∧ c ≤ '9'

/-- The integer that a numeral with an optional sign stands for; the sign `-` is for types with
negative numbers. -/
inductive IsSignedNumeral (signed : Bool) : List Char → Int → Prop
  | bare {ds : List Char} (h : IsNumeral ds) :
      IsSignedNumeral signed ds (Nat.ofDigitChars 10 ds 0)
  | plus {ds : List Char} (h : IsNumeral ds) :
      IsSignedNumeral signed ('+' :: ds) (Nat.ofDigitChars 10 ds 0)
  | minus {ds : List Char} (hsigned : signed = true) (h : IsNumeral ds) :
      IsSignedNumeral signed ('-' :: ds) (-Nat.ofDigitChars 10 ds 0)

/-- The integer that a literal denotes: there may be blanks around its numeral. -/
def Denotes (signed : Bool) (literal : String) (i : Int) : Prop :=
  ∃ before numeral after, literal.toList = before ++ numeral ++ after ∧
    (∀ c ∈ before ++ after, Text.isBlank c = true) ∧ IsSignedNumeral signed numeral i

/-! ## Texts -/

/-- The names of the types of texts. -/
def textTypes : List String :=
  ["Utf8", "String", "Text", "Bytes"]

end Ddl

/-! ## Values of columns -/

open Ddl

/-- The value that a statement holds for a literal of a column: the decimal text of an integer, a
truth value, or a quoted text. -/
inductive Column.HasValue (c : Column) (literal : String) : List Piece → Prop
  | integer {signed : Bool} {least greatest i : Int}
      (htype : IsIntegerType c.baseType signed least greatest)
      (hdenotes : Denotes signed literal i) (hleast : least ≤ i) (hgreatest : i ≤ greatest) :
      HasValue c literal ((toString i).toList.map .outside)
  | bool {b : Bool} (htype : c.baseType = "Bool")
      (hword : (Text.trim literal).toList.map Char.toLower = (toString b).toList) :
      HasValue c literal ((toString b).toList.map .outside)
  | text (htype : c.baseType ∈ textTypes) : HasValue c literal [.region .text literal.toList]

/-- The tuple that a statement holds for a split point of a table: a value for each literal, of the
column at the same place in the key. -/
structure Table.HasTuple (t : Table) (point : List String) (tuple : List (List Piece)) : Prop where
  pos : 1 ≤ point.length
  le : point.length ≤ t.primaryKey.length
  length_eq : tuple.length = point.length
  values : List.Forall₂ (fun e value => ∃ c, t.column? e.1 = some c ∧ c.HasValue e.2 value)
    (t.primaryKey.zip point) tuple

end SchemaPlan
