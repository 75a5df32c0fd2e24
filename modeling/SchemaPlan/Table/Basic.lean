import SchemaPlan.Named
import SchemaPlan.Table.Attributes
import SchemaPlan.Text.Blank

/-!
# Tables

A `Table` is the description of a table, declared or observed: its columns and primary key, and
the indexes, column families, changefeeds, settings and attributes it has. The operations at the
end add one part to a description.
-/

namespace SchemaPlan

/-! ## Parts of a table -/

/-- A column; `family` is the column family it is stored in. -/
structure Column where
  name : String
  type : String
  family : Option String := none
  notNull : Bool := false
  deriving Repr, DecidableEq

/-- Whether an index changes in the transaction that writes the table, or later. -/
inductive IndexKind where
  | sync
  | async
  deriving Repr, DecidableEq

/-- A secondary index: its key columns in order, and the columns whose values it holds too. -/
structure Index where
  name : String
  kind : IndexKind := .sync
  columns : List String
  cover : List String := []
  deriving Repr, DecidableEq

/-- A column family: the medium its data is on and how the data is compressed. -/
structure Family where
  name : String
  media : String
  compression : String
  deriving Repr, DecidableEq

/-- When rows expire: some time after the value of a column. -/
structure Ttl where
  column : String
  interval : String
  deriving Repr, DecidableEq

/-- How a table is split into partitions. -/
structure Partitioning where
  uniformPartitions : Option UInt64 := none
  minPartitions : Option UInt64 := none
  maxPartitions : Option UInt64 := none
  byLoad : Option Bool := none
  bySize : Option Bool := none
  sizeThreshold : Option UInt64 := none
  /-- The first keys of all partitions but the first, as literals for the key columns. -/
  splitPoints : List (List String) := []
  deriving Repr, DecidableEq

/-- How a table is replicated. -/
structure Replication where
  readReplicas : Option String := none
  deriving Repr, DecidableEq

/-- What a changefeed tells of a changed row. -/
inductive ChangefeedMode where
  | keysOnly
  | updates
  | newImage
  | oldImage
  | newAndOldImages
  deriving Repr, DecidableEq

/-- How a changefeed writes its records. -/
inductive ChangefeedFormat where
  | json
  | dynamoDbStreamsJson
  deriving Repr, DecidableEq

/-- A stream of the changes of a table. -/
structure Changefeed where
  name : String
  mode : ChangefeedMode := .updates
  format : ChangefeedFormat := .json
  virtualTimestamps : Bool := false
  retention : Option String := none
  /-- Whether the feed starts with the rows that are there when it is created. -/
  initialScan : Bool := false
  deriving Repr, DecidableEq

/-- Settings that can change on a table that exists. -/
structure TableSettings where
  ttl : Option Ttl := none
  partitioning : Option Partitioning := none
  replication : Option Replication := none
  deriving Repr, DecidableEq

/-- The description of a table. -/
structure Table where
  path : String
  columns : List Column := []
  primaryKey : List String := []
  indexes : List Index := []
  families : List Family := []
  ttl : Option Ttl := none
  partitioning : Option Partitioning := none
  replication : Option Replication := none
  attributes : Attributes := .empty
  changefeeds : List Changefeed := []
  deriving DecidableEq

/-! ## Columns -/

/-- What stands around the type of values in the type of a column that may be null. -/
def Column.optionalMarks : List Char × List Char :=
  ("Optional<".toList, ">".toList)

/-- The text between `Optional<` and `>`, if the text has this form. -/
def Column.insideOptional? (type : List Char) : Option (List Char) :=
  (optionalMarks.1.isPrefixOf? type).bind fun rest => optionalMarks.2.isSuffixOf? rest

/-- The type of the values of a column: the type without `Optional<>` around it or without one
question mark at its end. -/
def Column.baseType (c : Column) : String :=
  let type := Text.dropEnds Text.isBlank c.type.toList
  match insideOptional? type with
  | some inner => .ofList (Text.dropEnds Text.isBlank inner)
  | none => .ofList ((['?'].isSuffixOf? type).getD type)

/-! ## Indexes and changefeeds -/

/-- Whether two indexes hold the same data under the same name: key columns in order, covered
columns as a set. The kind does not count. -/
def Index.sameAs (a b : Index) : Bool :=
  a.name = b.name && a.columns = b.columns && sameElements a.cover b.cover

/-- Whether two changefeeds carry the same records under the same name. Whether they started
with an initial scan does not count. -/
def Changefeed.sameAs (a b : Changefeed) : Bool :=
  a.name = b.name && a.mode = b.mode && a.format = b.format
    && a.virtualTimestamps = b.virtualTimestamps && a.retention = b.retention

/-! ## Settings -/

/-- Whether nothing is said about partitions. -/
def Partitioning.isEmpty (p : Partitioning) : Bool :=
  p.uniformPartitions.isNone && p.minPartitions.isNone && p.maxPartitions.isNone
    && p.byLoad.isNone && p.bySize.isNone && p.sizeThreshold.isNone && p.splitPoints.isEmpty

/-- Whether no setting is there. -/
def TableSettings.isEmpty (s : TableSettings) : Bool :=
  s.ttl.isNone && s.partitioning.isNone && s.replication.isNone

namespace Table

/-- The settings of a table that can change once it exists. -/
def settings (t : Table) : TableSettings :=
  ⟨t.ttl, t.partitioning, t.replication⟩

/-- The names of the columns in order. -/
def columnNames (t : Table) : List String :=
  t.columns.map Column.name

/-- The first column called `name`. -/
def column? (t : Table) (name : String) : Option Column :=
  t.columns.find? fun c => c.name = name

/-! ## Adding parts -/

/-- The table with one more column, the last. -/
def addColumn (t : Table) (c : Column) : Table :=
  { t with columns := t.columns ++ [c] }

/-- The table with one more index, the last. -/
def addIndex (t : Table) (i : Index) : Table :=
  { t with indexes := t.indexes ++ [i] }

/-- The table with one more column family, the last. -/
def addFamily (t : Table) (f : Family) : Table :=
  { t with families := t.families ++ [f] }

/-- The table with one more changefeed, the last. -/
def addChangefeed (t : Table) (f : Changefeed) : Table :=
  { t with changefeeds := t.changefeeds ++ [f] }

/-- The table with the attribute `key` set to `v`. -/
def setAttribute (t : Table) (key v : String) : Table :=
  { t with attributes := t.attributes.insert key v }

end Table

end SchemaPlan
