import SchemaPlan.Json.Form
import SchemaPlan.Table.Basic

/-!
# JSON form of tables

For each part of a table, `ofJson?` reads it from a JSON value and `toJson` writes it. Members
that say nothing are left out: a family, retention period or setting that is absent, and an empty
list of split points or attributes.
-/

namespace SchemaPlan

open Json

/-! ## Columns, indexes and families -/

/-- The fields of a column. -/
def Column.fieldNames : List String :=
  ["name", "type", "family", "not_null"]

def Column.ofJson? (v : Value) : Option Column := do
  let fields ← v.fields? fieldNames
  return {
    name := ← fields.required? "name" Value.string?
    type := ← fields.required? "type" Value.string?
    family := ← fields.optional? "family" Value.string?
    notNull := ← fields.withDefault? "not_null" false Value.bool? }

def Column.toJson (c : Column) : Value :=
  .object <|
    [("name", .string c.name), ("type", .string c.type)]
      ++ memberIfSome "family" .string c.family
      ++ [("not_null", .bool c.notNull)]

/-- The names of the kinds of indexes. -/
def IndexKind.cases : List (String × IndexKind) :=
  [("sync", .sync), ("async", .async)]

/-- The name of a kind of index. -/
def IndexKind.name : IndexKind → String
  | sync => "sync"
  | async => "async"

/-- The fields of an index. -/
def Index.fieldNames : List String :=
  ["name", "kind", "columns", "cover"]

def Index.ofJson? (v : Value) : Option Index := do
  let fields ← v.fields? fieldNames
  return {
    name := ← fields.required? "name" Value.string?
    kind := ← fields.withDefault? "kind" .sync (Value.case? IndexKind.cases)
    columns := ← fields.required? "columns" (Value.list? Value.string?)
    cover := ← fields.withDefault? "cover" [] (Value.list? Value.string?) }

def Index.toJson (i : Index) : Value :=
  .object [("name", .string i.name), ("kind", .string i.kind.name),
    ("columns", .strings i.columns), ("cover", .strings i.cover)]

/-- The fields of a column family. -/
def Family.fieldNames : List String :=
  ["name", "media_type", "compression"]

def Family.ofJson? (v : Value) : Option Family := do
  let fields ← v.fields? fieldNames
  return {
    name := ← fields.required? "name" Value.string?
    media := ← fields.required? "media_type" Value.string?
    compression := ← fields.required? "compression" Value.string? }

def Family.toJson (f : Family) : Value :=
  .object [("name", .string f.name), ("media_type", .string f.media),
    ("compression", .string f.compression)]

/-! ## Settings -/

/-- The fields of the expiry of rows. -/
def Ttl.fieldNames : List String :=
  ["column_name", "expire_interval"]

def Ttl.ofJson? (v : Value) : Option Ttl := do
  let fields ← v.fields? fieldNames
  return {
    column := ← fields.required? "column_name" Value.string?
    interval := ← fields.required? "expire_interval" Value.string? }

def Ttl.toJson (t : Ttl) : Value :=
  .object [("column_name", .string t.column), ("expire_interval", .string t.interval)]

/-- The fields of the partitioning. -/
def Partitioning.fieldNames : List String :=
  ["uniform_partitions", "min_partitions", "max_partitions", "by_load_enabled",
    "by_size_enabled", "by_size_threshold_bytes", "partition_at_keys"]

def Partitioning.ofJson? (v : Value) : Option Partitioning := do
  let fields ← v.fields? fieldNames
  return {
    uniformPartitions := ← fields.optional? "uniform_partitions" Value.word?
    minPartitions := ← fields.optional? "min_partitions" Value.word?
    maxPartitions := ← fields.optional? "max_partitions" Value.word?
    byLoad := ← fields.optional? "by_load_enabled" Value.bool?
    bySize := ← fields.optional? "by_size_enabled" Value.bool?
    sizeThreshold := ← fields.optional? "by_size_threshold_bytes" Value.word?
    splitPoints := ←
      fields.withDefault? "partition_at_keys" [] (Value.list? (Value.list? Value.string?)) }

def Partitioning.toJson (p : Partitioning) : Value :=
  .object <|
    memberIfSome "uniform_partitions" .word p.uniformPartitions
      ++ memberIfSome "min_partitions" .word p.minPartitions
      ++ memberIfSome "max_partitions" .word p.maxPartitions
      ++ memberIfSome "by_load_enabled" .bool p.byLoad
      ++ memberIfSome "by_size_enabled" .bool p.bySize
      ++ memberIfSome "by_size_threshold_bytes" .word p.sizeThreshold
      ++ memberIfAny "partition_at_keys" (.list .strings) p.splitPoints

/-- The fields of the replication. -/
def Replication.fieldNames : List String :=
  ["read_replicas_setting"]

def Replication.ofJson? (v : Value) : Option Replication := do
  let fields ← v.fields? fieldNames
  return { readReplicas := ← fields.optional? "read_replicas_setting" Value.string? }

def Replication.toJson (r : Replication) : Value :=
  .object (memberIfSome "read_replicas_setting" .string r.readReplicas)

/-- A member of an object whose value is a string. -/
def stringMember? (m : String × Value) : Option (String × String) :=
  m.2.string?.map fun s => (m.1, s)

def Attributes.ofJson? : Value → Option Attributes
  | .object members => (members.mapM stringMember?).map Attributes.ofList
  | _ => none

def Attributes.toJson (attributes : Attributes) : Value :=
  .object (attributes.entries.map fun e => (e.1, .string e.2))

/-! ## Changefeeds -/

/-- The name of a mode, in documents and in statements. -/
def ChangefeedMode.name : ChangefeedMode → String
  | keysOnly => "KEYS_ONLY"
  | updates => "UPDATES"
  | newImage => "NEW_IMAGE"
  | oldImage => "OLD_IMAGE"
  | newAndOldImages => "NEW_AND_OLD_IMAGES"

/-- The names of the modes. -/
def ChangefeedMode.cases : List (String × ChangefeedMode) :=
  [keysOnly, updates, newImage, oldImage, newAndOldImages].map fun m => (m.name, m)

/-- The name of a format, in documents and in statements. -/
def ChangefeedFormat.name : ChangefeedFormat → String
  | json => "JSON"
  | dynamoDbStreamsJson => "DYNAMODB_STREAMS_JSON"

/-- The names of the formats. -/
def ChangefeedFormat.cases : List (String × ChangefeedFormat) :=
  [json, dynamoDbStreamsJson].map fun f => (f.name, f)

/-- The fields of a changefeed. -/
def Changefeed.fieldNames : List String :=
  ["name", "mode", "format", "virtual_timestamps", "retention_period", "initial_scan"]

def Changefeed.ofJson? (v : Value) : Option Changefeed := do
  let fields ← v.fields? fieldNames
  return {
    name := ← fields.required? "name" Value.string?
    mode := ← fields.withDefault? "mode" .updates (Value.case? ChangefeedMode.cases)
    format := ← fields.withDefault? "format" .json (Value.case? ChangefeedFormat.cases)
    virtualTimestamps := ← fields.withDefault? "virtual_timestamps" false Value.bool?
    retention := ← fields.optional? "retention_period" Value.string?
    initialScan := ← fields.withDefault? "initial_scan" false Value.bool? }

def Changefeed.toJson (f : Changefeed) : Value :=
  .object <|
    [("name", .string f.name), ("mode", .string f.mode.name), ("format", .string f.format.name),
      ("virtual_timestamps", .bool f.virtualTimestamps)]
      ++ memberIfSome "retention_period" .string f.retention
      ++ [("initial_scan", .bool f.initialScan)]

/-! ## Tables -/

/-- The fields of a table. -/
def Table.fieldNames : List String :=
  ["path", "columns", "primary_key", "indexes", "families", "ttl", "partitioning",
    "replication", "attributes", "changefeeds"]

def Table.ofJson? (v : Value) : Option Table := do
  let fields ← v.fields? fieldNames
  return {
    path := ← fields.required? "path" Value.string?
    columns := ← fields.required? "columns" (Value.list? Column.ofJson?)
    primaryKey := ← fields.required? "primary_key" (Value.list? Value.string?)
    indexes := ← fields.withDefault? "indexes" [] (Value.list? Index.ofJson?)
    families := ← fields.withDefault? "families" [] (Value.list? Family.ofJson?)
    ttl := ← fields.optional? "ttl" Ttl.ofJson?
    partitioning := ← fields.optional? "partitioning" Partitioning.ofJson?
    replication := ← fields.optional? "replication" Replication.ofJson?
    attributes := ← fields.withDefault? "attributes" .empty Attributes.ofJson?
    changefeeds := ← fields.withDefault? "changefeeds" [] (Value.list? Changefeed.ofJson?) }

def Table.toJson (t : Table) : Value :=
  .object <|
    [("path", .string t.path), ("columns", .list Column.toJson t.columns),
      ("primary_key", .strings t.primaryKey), ("indexes", .list Index.toJson t.indexes),
      ("families", .list Family.toJson t.families)]
      ++ memberIfSome "ttl" Ttl.toJson t.ttl
      ++ memberIfSome "partitioning" Partitioning.toJson t.partitioning
      ++ memberIfSome "replication" Replication.toJson t.replication
      ++ (if t.attributes.entries.isEmpty then [] else [("attributes", t.attributes.toJson)])
      ++ [("changefeeds", .list Changefeed.toJson t.changefeeds)]

end SchemaPlan
