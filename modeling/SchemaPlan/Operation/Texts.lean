import SchemaPlan.Ddl.Topic
import SchemaPlan.Operation

/-!
# The names and texts of operations

An operation consists of names and texts that its statement puts between quotes and of everything
else: which parts there are and how many, types, numbers, switches and keys of attributes.
`Operation.texts` lists the former in the order of the clauses, and `Operation.shape` is the latter:
the operation with every name and text emptied.
-/

namespace SchemaPlan

/-! ## Names and texts -/

/-- The names of the definition of a column. -/
def Column.texts (c : Column) : List String :=
  c.name :: c.family.toList

/-- The names of the definition of an index. -/
def Index.texts (i : Index) : List String :=
  i.name :: (i.columns ++ i.cover)

/-- The name and the texts of the definition of a column family. -/
def Family.texts (f : Family) : List String :=
  [f.name, f.media, f.compression]

/-- The values of split points that are written as texts: those of text columns. -/
def splitTexts (key : List Column) (points : List (List String)) : List String :=
  points.flatMap fun point => (key.zip point).filterMap fun (c, literal) =>
    if Ddl.literalTypes.lookup c.baseType = some .text then some literal else none

/-- The texts and the name in the settings of a table with the given key. -/
def TableSettings.texts (key : List Column) (s : TableSettings) : List String :=
  (s.ttl.toList.flatMap fun t => [t.interval, t.column])
    ++ splitTexts key (s.partitioning.getD {}).splitPoints
    ++ (s.replication.bind Replication.readReplicas).toList

/-- The name and the texts of a changefeed. -/
def Changefeed.texts (f : Changefeed) : List String :=
  f.name :: f.mode.name :: f.format.name :: f.retention.toList

/-- The text of a list of codecs, if there are any. -/
def codecTexts (codecs : List Codec) : List String :=
  if codecs.isEmpty then [] else [",".intercalate (codecs.map Codec.keyword)]

/-- The name and the texts of the definition of a consumer. -/
def Consumer.texts (c : Consumer) : List String :=
  c.name :: (codecTexts c.codecs ++ [c.readFrom.writeSeconds])

/-- The texts of the settings of a topic. -/
def TopicSettings.texts (s : TopicSettings) : List String :=
  s.retention.toList ++ codecTexts s.codecs

/-- The name and the texts of a change of a consumer. -/
def ConsumerChange.texts : ConsumerChange → List String
  | add c => c.texts
  | setReadFrom name readFrom => [name, readFrom.writeSeconds]
  | setCodecs name codecs => name :: codecTexts codecs

/-- The names and texts of a table that its creation mentions. -/
def Table.texts (t : Table) : List String :=
  t.path :: (t.columns.flatMap Column.texts ++ t.indexes.flatMap Index.texts ++ t.primaryKey
    ++ t.families.flatMap Family.texts ++ t.settings.texts (t.primaryKey.filterMap t.column?)
    ++ t.attributes.entries.map Prod.snd)

/-- The names and texts of a topic. -/
def Topic.texts (t : Topic) : List String :=
  t.path :: (t.consumers.flatMap Consumer.texts
    ++ TopicSettings.texts ⟨t.partitions, t.retention, t.codecs⟩)

/-- The names and texts that the statement of an operation puts between quotes, in the order of its
clauses. -/
def Operation.texts : Operation → List String
  | createTable table => table.texts
  | addColumn table column => table :: column.texts
  | addIndex table index => table :: index.texts
  | dropIndex table name => [table, name]
  | addChangefeed table changefeed => table :: changefeed.texts
  | dropChangefeed table name => [table, name]
  | setTableSettings table settings => table :: settings.texts []
  | resetTtl table => [table]
  | createTopic topic => topic.texts
  | alterTopic topic settings => topic :: settings.texts
  | changeConsumer topic change => topic :: change.texts

/-- The split points an operation mentions. -/
def Operation.splitPoints : Operation → List (List String)
  | createTable table => (table.partitioning.getD {}).splitPoints
  | setTableSettings _ settings => (settings.partitioning.getD {}).splitPoints
  | _ => []

/-! ## Shapes -/

/-- The column without its names. -/
def Column.shape (c : Column) : Column :=
  { c with name := "", family := c.family.map fun _ => "" }

/-- The index without its names. -/
def Index.shape (i : Index) : Index :=
  { i with name := "", columns := i.columns.map fun _ => "", cover := i.cover.map fun _ => "" }

/-- The settings without their names and texts. -/
def TableSettings.shape (s : TableSettings) : TableSettings :=
  { s with
    ttl := s.ttl.map fun _ => ⟨"", ""⟩
    replication := s.replication.map fun r => ⟨r.readReplicas.map fun _ => ""⟩ }

/-- The attributes without their values. -/
def Attributes.shape (a : Attributes) : Attributes :=
  ⟨a.entries.map fun e => (e.1, ""), List.pairwise_map.2 a.sorted⟩

/-- The changefeed without its name and texts. -/
def Changefeed.shape (f : Changefeed) : Changefeed :=
  { f with name := "", mode := .updates, format := .json, retention := f.retention.map fun _ => "" }

/-- The table without its names and texts. -/
def Table.shape (t : Table) : Table where
  path := ""
  columns := t.columns.map Column.shape
  primaryKey := t.primaryKey.map fun _ => ""
  indexes := t.indexes.map Index.shape
  families := t.families.map fun _ => ⟨"", "", ""⟩
  ttl := t.settings.shape.ttl
  partitioning := t.settings.shape.partitioning
  replication := t.settings.shape.replication
  attributes := t.attributes.shape
  changefeeds := t.changefeeds.map Changefeed.shape

/-- As many codecs. -/
def codecsShape (codecs : List Codec) : List Codec :=
  codecs.map fun _ => .raw

/-- The consumer without its name and texts. -/
def Consumer.shape (c : Consumer) : Consumer :=
  ⟨"", codecsShape c.codecs, .epoch⟩

/-- The settings without their texts. -/
def TopicSettings.shape (s : TopicSettings) : TopicSettings :=
  ⟨s.partitions, s.retention.map fun _ => "", codecsShape s.codecs⟩

/-- The topic without its names and texts. -/
def Topic.shape (t : Topic) : Topic where
  path := ""
  partitions := t.partitions
  retention := t.retention.map fun _ => ""
  codecs := codecsShape t.codecs
  consumers := t.consumers.map Consumer.shape

/-- The change without its name and texts. -/
def ConsumerChange.shape : ConsumerChange → ConsumerChange
  | add c => add c.shape
  | setReadFrom _ _ => setReadFrom "" .epoch
  | setCodecs _ codecs => setCodecs "" (codecsShape codecs)

/-- The operation without its names and texts: its kind, the parts that are there and how many,
types, numbers, switches and keys of attributes. -/
def Operation.shape : Operation → Operation
  | createTable table => createTable table.shape
  | addColumn _ column => addColumn "" column.shape
  | addIndex _ index => addIndex "" index.shape
  | dropIndex _ _ => dropIndex "" ""
  | addChangefeed _ changefeed => addChangefeed "" changefeed.shape
  | dropChangefeed _ _ => dropChangefeed "" ""
  | setTableSettings _ settings => setTableSettings "" settings.shape
  | resetTtl _ => resetTtl ""
  | createTopic topic => createTopic topic.shape
  | alterTopic _ settings => alterTopic "" settings.shape
  | changeConsumer _ change => changeConsumer "" change.shape

end SchemaPlan
