import SchemaPlan.Operation

/-!
# Operations as their statements say them

A statement does not say everything of an operation: read positions stand in it to the second, a
leap second that does not end a minute as the second after it, and a group of settings in which
nothing is set leaves no trace. `Operation.written` is the operation that its statement says;
`Operation.mapReadPositions` changes read positions in any way.
-/

namespace SchemaPlan

/-- The settings without the groups in which nothing is set. -/
def TableSettings.written (s : TableSettings) : TableSettings where
  ttl := s.ttl
  partitioning := s.partitioning.filter fun p => !p.isEmpty
  replication := (s.replication.bind Replication.readReplicas).map fun replicas => ⟨some replicas⟩

/-- The second of an instant, as it is read. -/
def Timestamp.written (t : Timestamp) : Timestamp :=
  t.wholeSeconds.asRead

/-- The consumer with the read position that a statement says. -/
def Consumer.written (c : Consumer) : Consumer :=
  { c with readFrom := c.readFrom.written }

/-- The topic with the read positions of its consumers that a statement says. -/
def Topic.written (t : Topic) : Topic :=
  { t with consumers := t.consumers.map Consumer.written }

/-- The change with the read position that a statement says. -/
def ConsumerChange.written : ConsumerChange → ConsumerChange
  | add consumer => add consumer.written
  | setReadFrom name readFrom => setReadFrom name readFrom.written
  | setCodecs name codecs => setCodecs name codecs

namespace Operation

/-- The operation that the statement of an operation says. -/
def written : Operation → Operation
  | setTableSettings table settings => setTableSettings table settings.written
  | createTopic topic => createTopic topic.written
  | changeConsumer topic change => changeConsumer topic change.written
  | operation => operation

/-- The operation with each of its read positions changed by `f`. -/
def mapReadPositions (f : Timestamp → Timestamp) : Operation → Operation
  | createTopic topic =>
    createTopic { topic with
      consumers := topic.consumers.map fun c => { c with readFrom := f c.readFrom } }
  | changeConsumer topic (.add consumer) =>
    changeConsumer topic (.add { consumer with readFrom := f consumer.readFrom })
  | changeConsumer topic (.setReadFrom name readFrom) =>
    changeConsumer topic (.setReadFrom name (f readFrom))
  | operation => operation

/-- Whether the statement of an operation defines columns, whose types stand in it without
quotes. -/
def definesColumns : Operation → Bool
  | createTable _ => true
  | addColumn _ _ => true
  | _ => false

end Operation

end SchemaPlan
