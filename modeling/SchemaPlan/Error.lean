import SchemaPlan.Decimal
import SchemaPlan.Text.Shown

/-!
# What can go wrong

`Error` has one constructor for every cause for which planning stops, with the names and texts
the cause is about. The wording is in one place: `HandleFault.message`, `TableProblem.message`,
`Rejection.message` and `Error.message`.
-/

namespace SchemaPlan

/-- Why a text, or four parts, make no handle. -/
inductive HandleFault where
  | emptyHandle
  | unknownScheme
  | noDatabaseSection
  | emptyHost
  | hostWithSlash
  | relativeDatabase
  | databaseWithSeparator
  | noEntityPath
  | emptyEntityPath
  deriving Repr, DecidableEq

/-- The wording of a fault of a handle. -/
def HandleFault.message : HandleFault → String
  | emptyHandle => "empty identifier"
  | unknownScheme => "expected grpc:// or grpcs:// scheme"
  | noDatabaseSection => "missing '/?database=' section"
  | emptyHost => "empty endpoint host"
  | hostWithSlash => "endpoint host contains '/'"
  | relativeDatabase => "database path is not absolute"
  | databaseWithSeparator => "database path contains a query separator"
  | noEntityPath => "cannot locate entity path"
  | emptyEntityPath => "empty entity path"

/-- What can be wrong with the declaration of a table. -/
inductive TableProblem where
  | emptyPath
  | noColumns
  | noPrimaryKey
  | duplicateColumn (column : String)
  | undeclaredFamily (column family : String)
  | undeclaredKeyColumn (column : String)
  | indexWithoutColumns (index : String)
  | undeclaredIndexColumn (index column : String)
  | undeclaredTtlColumn (column : String)
  deriving Repr, DecidableEq

/-- The wording of a problem of a table. -/
def TableProblem.message : TableProblem → String
  | emptyPath => "empty table path"
  | noColumns => "no columns"
  | noPrimaryKey => "missing primary key"
  | duplicateColumn column => "duplicate column '" ++ column ++ "'"
  | undeclaredFamily column family =>
    "column '" ++ column ++ "' uses undeclared family '" ++ family ++ "'"
  | undeclaredKeyColumn column => "primary key column '" ++ column ++ "' is not declared"
  | indexWithoutColumns index => "index '" ++ index ++ "' has no columns"
  | undeclaredIndexColumn index column =>
    "index '" ++ index ++ "' references undeclared column '" ++ column ++ "'"
  | undeclaredTtlColumn column => "TTL column '" ++ column ++ "' is not declared"

/-- Why something cannot be planned or written as a statement. -/
inductive Rejection where
  | tableProblem (table : String) (problem : TableProblem)
  | emptyTopicPath
  | pathMismatch (declared addressed : String)
  | pathLeavesSnapshots (path : String)
  | duplicateConsumer (consumer : String)
  | duplicateTopicConsumer (topic consumer : String)
  | forbiddenInName (name : String)
  | forbiddenInText (text : String)
  | createWithoutColumns (table : String)
  | createWithoutKey (table : String)
  | keyColumnMissing (column : String)
  | invalidType (column type : String)
  | indexWithoutColumns (index : String)
  | invalidAttribute (key : String)
  | splitPointSize (values columns : Nat)
  | noTableSettings (table : String)
  | noTopicSettings (topic : String)
  | noCodecs (consumer : String)
  deriving Repr, DecidableEq

/-- The wording of a rejection. -/
def Rejection.message : Rejection → String
  | tableProblem table problem => "table '" ++ table ++ "': " ++ problem.message
  | emptyTopicPath => "empty topic path"
  | pathMismatch declared addressed =>
    "desired path '" ++ declared ++ "' does not match identifier path '" ++ addressed ++ "'"
  | pathLeavesSnapshots path => "snapshot path '" ++ path ++ "' leaves the snapshot directory"
  | duplicateConsumer consumer => "duplicate consumer '" ++ consumer ++ "'"
  | duplicateTopicConsumer topic consumer =>
    "topic '" ++ topic ++ "': duplicate consumer '" ++ consumer ++ "'"
  | forbiddenInName name => "identifier " ++ Text.shown name ++ " contains a forbidden character"
  | forbiddenInText text => "literal " ++ Text.shown text ++ " contains a forbidden character"
  | createWithoutColumns table => "table '" ++ table ++ "' has no columns"
  | createWithoutKey table => "table '" ++ table ++ "' has no primary key"
  | keyColumnMissing column => "primary key column '" ++ column ++ "' is not declared"
  | invalidType column type => "invalid type '" ++ type ++ "' for column '" ++ column ++ "'"
  | indexWithoutColumns index => "index '" ++ index ++ "' has no columns"
  | invalidAttribute key => "invalid attribute name '" ++ key ++ "'"
  | splitPointSize values columns =>
    "split point has " ++ Decimal.ofNat values ++ " values but the primary key has "
      ++ Decimal.ofNat columns ++ " columns"
  | noTableSettings table => "no settings to change on table '" ++ table ++ "'"
  | noTopicSettings topic => "no settings to change on topic '" ++ topic ++ "'"
  | noCodecs consumer => "empty codec list for consumer '" ++ consumer ++ "'"

/-- Why the observed state of an object is not known. -/
inductive DescribeFault where
  /-- The source of observed objects refused with a text of its own. -/
  | reported (text : String)
  /-- The snapshot is there and cannot be read. -/
  | unreadable
  /-- The snapshot is not the description of such an object. -/
  | malformed
  deriving Repr, DecidableEq

/-- The wording of a failed description. -/
def DescribeFault.message : DescribeFault → String
  | reported text => text
  | unreadable => "the snapshot cannot be read"
  | malformed => "the snapshot does not describe an object of this kind"

/-- A cause for which planning stops. -/
inductive Error where
  /-- `handle` does not name an object. -/
  | malformedHandle (handle : String) (fault : HandleFault)
  /-- The observed columns `columns` are not declared any more. -/
  | droppedColumns (columns : List String)
  | unknownCodec (name : String)
  /-- `literal` is no value of the type of `column`. -/
  | invalidLiteral (column type literal : String)
  | rejected (cause : Rejection)
  /-- The declaration of `table` has the two or more problems `problems`. -/
  | manyProblems (table : String) (problems : List TableProblem)
  | undescribed (path : String) (fault : DescribeFault)
  | notCreated (path : String)
  deriving Repr, DecidableEq

/-- The short name of what is refused when an observed column is not declared any more. -/
def Error.droppingColumns : String :=
  "dropping columns"

/-- The wording of an error. -/
def Error.message : Error → String
  | malformedHandle handle fault =>
    "Malformed entity identifier '" ++ handle ++ "': " ++ fault.message
  | droppedColumns columns =>
    "Unsupported operation: " ++ droppingColumns ++ ": " ++ ", ".intercalate columns
  | unknownCodec name => "Unknown codec: " ++ name
  | invalidLiteral column type literal =>
    "Invalid literal '" ++ literal ++ "' for column '" ++ column ++ "' of type " ++ type
  | rejected cause => "Encoding error: " ++ cause.message
  | manyProblems table problems =>
    "Multiple errors occurred:\n" ++ "\n".intercalate (problems.map fun p =>
      "  - Encoding error: " ++ (Rejection.tableProblem table p).message)
  | undescribed path fault => "Failed to describe '" ++ path ++ "': " ++ fault.message
  | notCreated path => "Object '" ++ path ++ "' does not exist after creation"

/-- The problems of a table as an error: none is no error, one is reported bare, and several
are reported together in order. -/
def Error.ofProblems (table : String) : List TableProblem → Except Error Unit
  | [] => .ok ()
  | [problem] => .error (.rejected (.tableProblem table problem))
  | problems => .error (.manyProblems table problems)

end SchemaPlan
