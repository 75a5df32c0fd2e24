import SchemaPlan.Ddl.Phrase
import SchemaPlan.Table.Basic

/-!
# Typed literals

A split point of a table gives values for the key columns as texts. `typedLiteral` writes such a
text as a value of the type of its column: whole numbers in decimal, truth values as words, texts
in quotes.
-/

namespace SchemaPlan.Ddl

/-- The types whose values can be split points. -/
inductive LiteralType where
  | integer (range : Decimal.IntegerRange)
  | bool
  | text
  deriving Repr, DecidableEq

/-- The types of split points by name. -/
def literalTypes : List (String × LiteralType) :=
  [("Int8", .integer (.ofSigned 8)), ("Int16", .integer (.ofSigned 16)),
    ("Int32", .integer (.ofSigned 32)), ("Int64", .integer (.ofSigned 64)),
    ("Uint8", .integer (.ofUnsigned 8)), ("Uint16", .integer (.ofUnsigned 16)),
    ("Uint32", .integer (.ofUnsigned 32)), ("Uint64", .integer (.ofUnsigned 64)),
    ("Bool", .bool), ("Utf8", .text), ("String", .text), ("Text", .text), ("Bytes", .text)]

/-- The truth value that a text names, whatever the case of its letters and the blanks around
it. -/
def readBool? (text : List Char) : Option Bool :=
  let word := (Text.dropEnds Text.isBlank text).map Char.toLower
  if word = "true".toList then some true
  else if word = "false".toList then some false
  else none

/-- A truth value in a statement. -/
def writeBool : Bool → String
  | true => "true"
  | false => "false"

/-- A text as a value of the type of a column. -/
def typedLiteral (c : Column) (literal : String) : Except Error Phrase :=
  let invalid := Error.invalidLiteral c.name c.type literal
  match literalTypes.lookup c.baseType with
  | some (.integer range) =>
    match range.read? (Text.dropEnds Text.isBlank literal.toList) with
    | some i => .ok (plain (Decimal.ofInt i))
    | none => .error invalid
  | some .bool =>
    match readBool? literal.toList with
    | some b => .ok (plain (writeBool b))
    | none => .error invalid
  | some .text => text literal
  | none => .error invalid

/-- A split point: values for the first columns of the key. -/
def splitPoint (key : List Column) (point : List String) : Except Error Phrase :=
  if point.isEmpty || key.length < point.length then
    .error (.rejected (.splitPointSize point.length key.length))
  else do
    return bracketed (← (key.zip point).mapM fun (c, literal) => typedLiteral c literal)

/-- The split points of a table. -/
def splitPoints (key : List Column) (points : List (List String)) : Except Error Phrase := do
  return bracketed (← points.mapM (splitPoint key))

end SchemaPlan.Ddl
