import SchemaPlan.Ddl.Literal
import SchemaPlan.Table.Json

/-!
# Statements about tables

The clauses of statements that create and alter tables, and the statements. Where several parts
of a statement cannot be written, the error is about the one that is looked at first, so the
order of the steps is part of each definition.
-/

namespace SchemaPlan.Ddl

/-! ## Columns, indexes and families -/

/-- Whether a character may stand in the type of a column. -/
def isTypeChar (c : Char) : Bool :=
  c.isAlphanum || "_<>(), ?".toList.contains c

/-- The type of a column, which is written without quotes and so may only hold characters that
types have. -/
def columnType (c : Column) : Except Error Phrase :=
  let type := Text.dropEnds Text.isBlank c.type.toList
  if !type.isEmpty && type.all isTypeChar then .ok (plain (.ofList type))
  else .error (.rejected (.invalidType c.name c.type))

/-- The definition of a column. -/
def columnDefinition (c : Column) : Except Error Phrase := do
  let column ← name c.name
  let type ← columnType c
  let family ← ifSome c.family fun f => return plain " FAMILY " ++ (← name f)
  return column ++ plain " " ++ type ++ family.flatten
    ++ (if c.notNull then plain " NOT NULL" else [])

/-- The keyword of a kind of index. -/
def kindKeyword : IndexKind → String
  | .sync => "SYNC"
  | .async => "ASYNC"

/-- The definition of an index. -/
def indexDefinition (i : Index) : Except Error Phrase := do
  if i.columns.isEmpty then throw (.rejected (.indexWithoutColumns i.name))
  let index ← name i.name
  let columns ← names i.columns
  let cover ← names i.cover
  return plain "INDEX " ++ index ++ plain (" GLOBAL " ++ kindKeyword i.kind ++ " ON (") ++ columns
    ++ plain ")" ++ (if i.cover.isEmpty then [] else plain " COVER (" ++ cover ++ plain ")")

/-- The definition of a column family. -/
def familyDefinition (f : Family) : Except Error Phrase := do
  let family ← name f.name
  let media ← text f.media
  let compression ← text f.compression
  return plain "FAMILY " ++ family ++ plain "(DATA = " ++ media ++ plain ", COMPRESSION = "
    ++ compression ++ plain ")"

/-! ## Settings -/

/-- A period of time. -/
def interval (period : String) : Except Error Phrase := do
  return plain "Interval(" ++ (← text period) ++ plain ")"

/-- When rows expire. -/
def ttlEntry (t : Ttl) : Except Error Phrase := do
  let period ← interval t.interval
  let column ← name t.column
  return setting "TTL" (period ++ plain " ON " ++ column)

/-- The entries of the partitioning of a table but for its split points. -/
def partitioningFlags {Q : Type} (p : Partitioning) : List (List (Fragment Q)) :=
  (p.byLoad.map fun b => setting "AUTO_PARTITIONING_BY_LOAD" (toggle b)).toList
    ++ (p.bySize.map fun b => setting "AUTO_PARTITIONING_BY_SIZE_ENABLED" (toggle b)).toList
    ++ (p.sizeThreshold.map fun n => setting "AUTO_PARTITIONING_BY_SIZE" (number n)).toList
    ++ (p.uniformPartitions.map fun n => setting "UNIFORM_PARTITIONS" (number n)).toList
    ++ (p.minPartitions.map fun n =>
      setting "AUTO_PARTITIONING_MIN_PARTITIONS_COUNT" (number n)).toList
    ++ (p.maxPartitions.map fun n =>
      setting "AUTO_PARTITIONING_MAX_PARTITIONS_COUNT" (number n)).toList

/-- The entry of the split points of a table with the given key, if there are any. -/
def splitPointsEntries (key : List Column) (points : List (List String)) :
    Except Error (List Phrase) :=
  if points.isEmpty then .ok []
  else do return [setting "PARTITION_AT_KEYS" (← splitPoints key points)]

/-- The entries of the partitioning of a table with the given key. -/
def partitioningEntries (key : List Column) (p : Partitioning) : Except Error (List Phrase) := do
  return partitioningFlags p ++ (← splitPointsEntries key p.splitPoints)

/-- The read replicas of a table. -/
def replicasEntry (replicas : String) : Except Error Phrase := do
  return setting "READ_REPLICAS_SETTINGS" (← text replicas)

/-- Whether a text may be the key of an attribute, which is written without quotes. -/
def isAttributeKey (key : String) : Bool :=
  !key.isEmpty && key.toList.all fun c => c.isAlphanum || c = '_'

/-- An attribute. -/
def attributeEntry (key value : String) : Except Error Phrase := do
  if !isAttributeKey key then throw (.rejected (.invalidAttribute key))
  return setting key (← text value)

/-- The entries of the settings of a table with the given key. -/
def settingsEntries (key : List Column) (s : TableSettings) : Except Error (List Phrase) := do
  let ttl ← ifSome s.ttl ttlEntry
  let partitioning ← partitioningEntries key (s.partitioning.getD {})
  let replicas ← ifSome (s.replication.bind Replication.readReplicas) replicasEntry
  return ttl ++ partitioning ++ replicas

/-- The entries of attributes in the order of their keys. -/
def attributeEntries (attributes : Attributes) : Except Error (List Phrase) :=
  attributes.entries.mapM fun e => attributeEntry e.1 e.2

/-! ## Statements -/

/-- The columns of the primary key. -/
def keyColumns (t : Table) : Except Error (List Column) :=
  t.primaryKey.mapM fun column =>
    match t.column? column with
    | some c => .ok c
    | none => .error (.rejected (.keyColumnMissing column))

/-- The primary key of a table. -/
def primaryKey (columns : List String) : Except Error Phrase := do
  return plain "PRIMARY KEY (" ++ (← names columns) ++ plain ")"

/-- Creates a table with its columns, indexes, families, settings and attributes. -/
def createTable (t : Table) : Except Error Phrase := do
  if t.columns.isEmpty then throw (.rejected (.createWithoutColumns t.path))
  if t.primaryKey.isEmpty then throw (.rejected (.createWithoutKey t.path))
  let columns ← t.columns.mapM columnDefinition
  let indexes ← t.indexes.mapM indexDefinition
  let key ← primaryKey t.primaryKey
  let families ← t.families.mapM familyDefinition
  let table ← name t.path
  let settings ← settingsEntries (← keyColumns t) t.settings
  let attributes ← attributeEntries t.attributes
  return plain "CREATE TABLE " ++ table ++ bracketBlock (columns ++ indexes ++ [key] ++ families)
    ++ withBlock (settings ++ attributes) ++ plain "\n"

/-- The beginning of a statement that alters a table. -/
def alterTable (table : String) : Except Error Phrase := do
  return plain "ALTER TABLE " ++ (← name table)

/-- Adds a column to a table. -/
def addColumn (table : String) (c : Column) : Except Error Phrase := do
  let alter ← alterTable table
  return alter ++ plain " ADD COLUMN " ++ (← columnDefinition c)

/-- Adds an index to a table. -/
def addIndex (table : String) (i : Index) : Except Error Phrase := do
  let alter ← alterTable table
  return alter ++ plain " ADD " ++ (← indexDefinition i)

/-- Drops an index of a table. -/
def dropIndex (table index : String) : Except Error Phrase := do
  let alter ← alterTable table
  return alter ++ plain " DROP INDEX " ++ (← name index)

/-- The entry of something that is switched on; no entry for what is not. -/
def switch {Q : Type} (key : String) (enabled : Bool) : List (List (Fragment Q)) :=
  if enabled then [setting key (plain "TRUE")] else []

/-- The settings of a changefeed. -/
def changefeedEntries (f : Changefeed) : Except Error (List Phrase) := do
  let mode ← text f.mode.name
  let format ← text f.format.name
  let retention ← ifSome f.retention fun period =>
    return setting "RETENTION_PERIOD" (← interval period)
  return [setting "MODE" mode, setting "FORMAT" format]
    ++ switch "VIRTUAL_TIMESTAMPS" f.virtualTimestamps
    ++ retention
    ++ switch "INITIAL_SCAN" f.initialScan

/-- Adds a changefeed to a table. -/
def addChangefeed (table : String) (f : Changefeed) : Except Error Phrase := do
  let entries ← changefeedEntries f
  let alter ← alterTable table
  return alter ++ plain " ADD CHANGEFEED " ++ (← name f.name) ++ plain " WITH "
    ++ bracketed entries

/-- Drops a changefeed of a table. -/
def dropChangefeed (table feed : String) : Except Error Phrase := do
  let alter ← alterTable table
  return alter ++ plain " DROP CHANGEFEED " ++ (← name feed)

/-- Changes settings of a table. -/
def setTableSettings (table : String) (s : TableSettings) : Except Error Phrase := do
  let entries ← settingsEntries [] s
  if entries.isEmpty then throw (.rejected (.noTableSettings table))
  let alter ← alterTable table
  return alter ++ plain " SET " ++ bracketed entries

/-- Makes the rows of a table stay. -/
def resetTtl (table : String) : Except Error Phrase := do
  return (← alterTable table) ++ plain " RESET (TTL)"

end SchemaPlan.Ddl
