import SchemaPlan.Ddl.Statement

/-!
# The drafts of statements

`Operation.draft` is the statement of an operation before its names and texts are put between
quotes. It never fails, so what a statement says can be computed from its operation. Where a clause
cannot be written, its draft is of no use.
-/

namespace SchemaPlan.Ddl

/-! ## Drafts of clauses -/

namespace Draft

/-- A name. -/
def name (content : String) : Draft :=
  [.quoted ⟨.name, content⟩]

/-- A text. -/
def text (content : String) : Draft :=
  [.quoted ⟨.text, content⟩]

/-- Names, separated by `, `. -/
def names (contents : List String) : Draft :=
  join ", " (contents.map name)

/-- The definition of a column. -/
def column (c : Column) : Draft :=
  name c.name ++ plain " " ++ plain (.ofList (Text.dropEnds Text.isBlank c.type.toList))
    ++ (c.family.toList.map fun f => plain " FAMILY " ++ name f).flatten
    ++ (if c.notNull then plain " NOT NULL" else [])

/-- The definition of an index. -/
def index (i : Index) : Draft :=
  plain "INDEX " ++ name i.name ++ plain (" GLOBAL " ++ kindKeyword i.kind ++ " ON (")
    ++ names i.columns ++ plain ")"
    ++ (if i.cover.isEmpty then [] else plain " COVER (" ++ names i.cover ++ plain ")")

/-- The definition of a column family. -/
def family (f : Family) : Draft :=
  plain "FAMILY " ++ name f.name ++ plain "(DATA = " ++ text f.media ++ plain ", COMPRESSION = "
    ++ text f.compression ++ plain ")"

/-- A period of time. -/
def interval (period : String) : Draft :=
  plain "Interval(" ++ text period ++ plain ")"

/-- When rows expire. -/
def ttl (t : Ttl) : Draft :=
  setting "TTL" (interval t.interval ++ plain " ON " ++ name t.column)

/-- A text as a value of the type of a column. -/
def literal (c : Column) (content : String) : Draft :=
  match literalTypes.lookup c.baseType with
  | some (.integer range) =>
    match range.read? (Text.dropEnds Text.isBlank content.toList) with
    | some i => plain (Decimal.ofInt i)
    | none => []
  | some .bool =>
    match readBool? content.toList with
    | some b => plain (writeBool b)
    | none => []
  | some .text => text content
  | none => []

/-- The split points of a table. -/
def splitPoints (key : List Column) (points : List (List String)) : Draft :=
  bracketed (points.map fun point =>
    bracketed ((key.zip point).map fun e => literal e.1 e.2))

/-- The entries of the partitioning of a table with the given key. -/
def partitioning (key : List Column) (p : Partitioning) : List Draft :=
  partitioningFlags p ++
    if p.splitPoints.isEmpty then []
    else [setting "PARTITION_AT_KEYS" (splitPoints key p.splitPoints)]

/-- The entries of the settings of a table with the given key. -/
def settings (key : List Column) (s : TableSettings) : List Draft :=
  s.ttl.toList.map ttl ++ partitioning key (s.partitioning.getD {})
    ++ (s.replication.bind Replication.readReplicas).toList.map fun replicas =>
      setting "READ_REPLICAS_SETTINGS" (text replicas)

/-- The entries of attributes in the order of their keys. -/
def attributes (a : Attributes) : List Draft :=
  a.entries.map fun e => setting e.1 (text e.2)

/-- The settings of a changefeed. -/
def changefeed (f : Changefeed) : List Draft :=
  [setting "MODE" (text f.mode.name), setting "FORMAT" (text f.format.name)]
    ++ switch "VIRTUAL_TIMESTAMPS" f.virtualTimestamps
    ++ (f.retention.toList.map fun period => setting "RETENTION_PERIOD" (interval period))
    ++ switch "INITIAL_SCAN" f.initialScan

/-- The codecs of a topic or consumer, if there are any. -/
def codecs (cs : List Codec) : List Draft :=
  if cs.isEmpty then []
  else [setting "supported_codecs" (text (",".intercalate (cs.map Codec.keyword)))]

/-- The read position of a consumer. -/
def readFrom (t : Timestamp) : Draft :=
  setting "read_from" (plain "Datetime(" ++ text t.writeSeconds ++ plain ")")

/-- The definition of a consumer. -/
def consumer (c : Consumer) : Draft :=
  plain "CONSUMER " ++ name c.name ++ plain " WITH "
    ++ bracketed (codecs c.codecs ++ [readFrom c.readFrom])

/-- The entries of the settings of a topic. -/
def topic (s : TopicSettings) : List Draft :=
  partitionsEntries s.partitions
    ++ (s.retention.toList.map fun period => setting "retention_period" (interval period))
    ++ codecs s.codecs

/-! ## Drafts of statements -/

/-- What the body of the creation of a table lists. -/
def tableEntries (t : Table) : List Draft :=
  t.columns.map column ++ t.indexes.map index
    ++ [plain "PRIMARY KEY (" ++ names t.primaryKey ++ plain ")"] ++ t.families.map family

/-- The entries of the settings and attributes of a table. -/
def withEntries (t : Table) : List Draft :=
  settings (t.primaryKey.filterMap t.column?) t.settings ++ attributes t.attributes

/-- Creates a table with its columns, indexes, families, settings and attributes. -/
def createTable (t : Table) : Draft :=
  plain "CREATE TABLE " ++ name t.path ++ bracketBlock (tableEntries t)
    ++ withBlock (withEntries t) ++ plain "\n"

/-- The beginning of a statement that alters a table. -/
def alterTable (table : String) : Draft :=
  plain "ALTER TABLE " ++ name table

/-- Creates a topic with its consumers. -/
def createTopic (t : Topic) : Draft :=
  plain "CREATE TOPIC " ++ name t.path
    ++ (if t.consumers.isEmpty then [] else bracketBlock (t.consumers.map consumer))
    ++ withBlock (topic ⟨t.partitions, t.retention, t.codecs⟩) ++ plain "\n"

/-- The beginning of a statement that alters a topic. -/
def alterTopic (topic : String) : Draft :=
  plain "ALTER TOPIC " ++ name topic

/-- Adds or changes a consumer of a topic. -/
def changeConsumer (topic : String) : ConsumerChange → Draft
  | .add c => alterTopic topic ++ plain " ADD " ++ consumer c
  | .setReadFrom c position =>
    alterTopic topic ++ plain " ALTER CONSUMER " ++ name c ++ plain " SET "
      ++ bracketed [readFrom position]
  | .setCodecs c cs =>
    alterTopic topic ++ plain " ALTER CONSUMER " ++ name c ++ plain " SET "
      ++ bracketed (codecs cs)

end Draft

end SchemaPlan.Ddl

namespace SchemaPlan

open Ddl

/-- The statement of an operation before its names and texts are put between quotes. -/
def Operation.draft : Operation → Draft
  | createTable table => Draft.createTable table
  | addColumn table column =>
    Draft.alterTable table ++ plain " ADD COLUMN " ++ Draft.column column
  | addIndex table index => Draft.alterTable table ++ plain " ADD " ++ Draft.index index
  | dropIndex table name => Draft.alterTable table ++ plain " DROP INDEX " ++ Draft.name name
  | addChangefeed table f =>
    Draft.alterTable table ++ plain " ADD CHANGEFEED " ++ Draft.name f.name ++ plain " WITH "
      ++ bracketed (Draft.changefeed f)
  | dropChangefeed table name =>
    Draft.alterTable table ++ plain " DROP CHANGEFEED " ++ Draft.name name
  | setTableSettings table settings =>
    Draft.alterTable table ++ plain " SET " ++ bracketed (Draft.settings [] settings)
  | resetTtl table => Draft.alterTable table ++ plain " RESET (TTL)"
  | createTopic topic => Draft.createTopic topic
  | alterTopic topic settings =>
    Draft.alterTopic topic ++ plain " SET " ++ bracketed (Draft.topic settings)
  | changeConsumer topic change => Draft.changeConsumer topic change

end SchemaPlan
