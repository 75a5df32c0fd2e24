import SchemaPlan.Operation

/-!
# Effects of operations

`Operation.onTable` and `Operation.onTopic` say what an operation makes of the table or topic it
is applied to; operations on other kinds of objects leave it alone. Additions append, drops
remove the entries of a name, and settings overwrite exactly what they carry.
-/

namespace SchemaPlan

/-- The value that is set, or the one that was there if none is. -/
def orKeep {α : Type} (set old : Option α) : Option α :=
  set.or old

/-- The partitioning in which the fields that are set have been overwritten. -/
def Partitioning.overwrite (set old : Partitioning) : Partitioning where
  uniformPartitions := orKeep set.uniformPartitions old.uniformPartitions
  minPartitions := orKeep set.minPartitions old.minPartitions
  maxPartitions := orKeep set.maxPartitions old.maxPartitions
  byLoad := orKeep set.byLoad old.byLoad
  bySize := orKeep set.bySize old.bySize
  sizeThreshold := orKeep set.sizeThreshold old.sizeThreshold
  splitPoints := if set.splitPoints.isEmpty then old.splitPoints else set.splitPoints

/-- The replication in which the fields that are set have been overwritten. -/
def Replication.overwrite (set old : Replication) : Replication where
  readReplicas := orKeep set.readReplicas old.readReplicas

/-- The table in which the settings that are set have been overwritten. -/
def Table.overwriteSettings (t : Table) (set : TableSettings) : Table :=
  { t with
    ttl := orKeep set.ttl t.ttl
    partitioning :=
      match set.partitioning with
      | some p => some (p.overwrite (t.partitioning.getD {}))
      | none => t.partitioning
    replication :=
      match set.replication with
      | some r => some (r.overwrite (t.replication.getD {}))
      | none => t.replication }

/-- What an operation makes of a table. -/
def Operation.onTable (t : Table) : Operation → Table
  | createTable table => table
  | addColumn _ column => t.addColumn column
  | addIndex _ index => t.addIndex index
  | dropIndex _ name => { t with indexes := t.indexes.filter fun i => i.name ≠ name }
  | addChangefeed _ changefeed => t.addChangefeed changefeed
  | dropChangefeed _ name =>
    { t with changefeeds := t.changefeeds.filter fun f => f.name ≠ name }
  | setTableSettings _ settings => t.overwriteSettings settings
  | resetTtl _ => { t with ttl := none }
  | createTopic _ => t
  | alterTopic _ _ => t
  | changeConsumer _ _ => t

/-- What a list of operations makes of a table. -/
def Table.afterAll (t : Table) (operations : List Operation) : Table :=
  operations.foldl Operation.onTable t

/-- The topic in which the settings that are set have been overwritten. -/
def Topic.overwriteSettings (t : Topic) (set : TopicSettings) : Topic :=
  { t with
    partitions := orKeep set.partitions t.partitions
    retention := orKeep set.retention t.retention
    codecs := if set.codecs.isEmpty then t.codecs else set.codecs }

/-- The consumers in which those called `name` have been changed. -/
def changeNamed (name : String) (change : Consumer → Consumer) (consumers : List Consumer) :
    List Consumer :=
  consumers.map fun c => if c.name = name then change c else c

/-- What a change of a consumer makes of the consumers of a topic. -/
def ConsumerChange.onConsumers (consumers : List Consumer) : ConsumerChange → List Consumer
  | add consumer => consumers ++ [consumer]
  | setReadFrom name readFrom =>
    changeNamed name (fun c => { c with readFrom := readFrom }) consumers
  | setCodecs name codecs => changeNamed name (fun c => { c with codecs := codecs }) consumers

/-- What an operation makes of a topic. -/
def Operation.onTopic (t : Topic) : Operation → Topic
  | createTopic topic => topic
  | alterTopic _ settings => t.overwriteSettings settings
  | changeConsumer _ change => { t with consumers := change.onConsumers t.consumers }
  | _ => t

/-- What a list of operations makes of a topic. -/
def Topic.afterAll (t : Topic) (operations : List Operation) : Topic :=
  operations.foldl Operation.onTopic t

end SchemaPlan
