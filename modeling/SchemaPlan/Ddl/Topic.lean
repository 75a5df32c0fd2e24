import SchemaPlan.Ddl.Table
import SchemaPlan.Timestamp.Writer
import SchemaPlan.Topic.Basic

/-!
# Statements about topics

The clauses of statements that create and alter topics and their consumers, and the statements.
As for tables, the order of the steps decides which error is reported.
-/

namespace SchemaPlan.Ddl

/-- A list of codecs. -/
def codecList (codecs : List Codec) : Except Error Phrase :=
  text (",".intercalate (codecs.map Codec.keyword))

/-- An instant, to the second. -/
def datetime (t : Timestamp) : Except Error Phrase := do
  return plain "Datetime(" ++ (← text t.writeSeconds) ++ plain ")"

/-- The codecs of a topic or consumer, if there are any. -/
def codecEntries (codecs : List Codec) : Except Error (List Phrase) :=
  if codecs.isEmpty then .ok []
  else do return [setting "supported_codecs" (← codecList codecs)]

/-- The read position of a consumer. -/
def readFromEntry (t : Timestamp) : Except Error Phrase := do
  return setting "read_from" (← datetime t)

/-- The settings of a consumer. -/
def consumerEntries (c : Consumer) : Except Error (List Phrase) := do
  let codecs ← codecEntries c.codecs
  return codecs ++ [← readFromEntry c.readFrom]

/-- The definition of a consumer. -/
def consumerDefinition (c : Consumer) : Except Error Phrase := do
  let consumer ← name c.name
  return plain "CONSUMER " ++ consumer ++ plain " WITH " ++ bracketed (← consumerEntries c)

/-- The entry of the number of partitions of a topic. -/
def partitionsEntries {Q : Type} (partitions : Option UInt64) : List (List (Fragment Q)) :=
  (partitions.map fun n => setting "min_active_partitions" (number n)).toList

/-- The entries of the settings of a topic. -/
def topicEntries (s : TopicSettings) : Except Error (List Phrase) := do
  let retention ← ifSome s.retention fun period =>
    return setting "retention_period" (← interval period)
  let codecs ← codecEntries s.codecs
  return partitionsEntries s.partitions ++ retention ++ codecs

/-! ## Statements -/

/-- Creates a topic with its consumers. -/
def createTopic (t : Topic) : Except Error Phrase := do
  let topic ← name t.path
  let consumers ← t.consumers.mapM consumerDefinition
  let settings ← topicEntries ⟨t.partitions, t.retention, t.codecs⟩
  return plain "CREATE TOPIC " ++ topic
    ++ (if consumers.isEmpty then [] else bracketBlock consumers)
    ++ withBlock settings ++ plain "\n"

/-- The beginning of a statement that alters a topic. -/
def alterTopicNamed (topic : String) : Except Error Phrase := do
  return plain "ALTER TOPIC " ++ (← name topic)

/-- Changes settings of a topic. -/
def alterTopic (topic : String) (s : TopicSettings) : Except Error Phrase := do
  let entries ← topicEntries s
  if entries.isEmpty then throw (.rejected (.noTopicSettings topic))
  let alter ← alterTopicNamed topic
  return alter ++ plain " SET " ++ bracketed entries

/-- Adds or changes a consumer of a topic. -/
def changeConsumer (topic : String) (change : ConsumerChange) : Except Error Phrase := do
  let alter ← alterTopicNamed topic
  match change with
  | .add c => return alter ++ plain " ADD " ++ (← consumerDefinition c)
  | .setReadFrom consumer readFrom =>
    let consumer ← name consumer
    return alter ++ plain " ALTER CONSUMER " ++ consumer ++ plain " SET "
      ++ bracketed [← readFromEntry readFrom]
  | .setCodecs consumer codecs =>
    if codecs.isEmpty then throw (.rejected (.noCodecs consumer))
    let consumer ← name consumer
    return alter ++ plain " ALTER CONSUMER " ++ consumer ++ plain " SET "
      ++ bracketed (← codecEntries codecs)

end SchemaPlan.Ddl
