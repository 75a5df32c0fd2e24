import SchemaPlan.Topic.Basic

/-!
# Topics as they are declared

What it means for a topic to be as a declaration asks. `DeclaredConsumer.HoldsIn` says it of one
consumer and `DeclaredTopic.SettingsHold` of the settings; what a declaration leaves out holds
whatever it is. `DeclaredTopic.SettledIn` says that nothing of the topic has to change, which
depends on what is `DeclaredTopic.compared` alone, and `DeclaredConsumer.ChangedBy` what has to
change of one consumer, step by step. `SameRefusal` says that a declaration is refused
for one cause, whether the topic is to be created or altered.
-/

namespace SchemaPlan

/-- The consumers of one name, in order. -/
def consumersNamed (name : String) (consumers : List Consumer) : List Consumer :=
  consumers.filter fun c => c.name = name

/-- The consumer is there once, with the declared read position and, if codecs are declared, with
exactly the codecs that they denote. -/
def DeclaredConsumer.HoldsIn (table : CodecTable) (consumers : List Consumer)
    (d : DeclaredConsumer) : Prop :=
  ∃ c, consumersNamed d.name consumers = [c] ∧ c.readFrom = d.effectiveReadFrom ∧
    (d.codecs ≠ [] → table.lookupAll d.codecs = .ok c.codecs)

/-- The topic has the settings that are declared; codecs are compared as sets. -/
structure DeclaredTopic.SettingsHold (table : CodecTable) (d : DeclaredTopic) (t : Topic) :
    Prop where
  partitions : ∀ n, d.partitions = some n → t.partitions = some n
  retention : ∀ period, d.retention = some period → t.retention = some period
  codecs : d.codecs ≠ [] →
    ∃ codecs, table.lookupAll d.codecs = .ok codecs ∧ ∀ c, c ∈ t.codecs ↔ c ∈ codecs

/-- Nothing of the consumer has to change: no codecs are declared for it, and a consumer of its name
reads from the declared position. -/
structure DeclaredConsumer.SettledIn (consumers : List Consumer) (d : DeclaredConsumer) : Prop where
  codecs : d.codecs = []
  observed : ∃ c ∈ consumers, c.name = d.name ∧ c.readFrom = d.effectiveReadFrom

/-- The changes of one declared consumer, in order: it is added if it is not observed; if it is, its
position is set where another is declared, and then its codecs where some are declared. -/
inductive DeclaredConsumer.ChangedBy (table : CodecTable) (observed : List Consumer)
    (d : DeclaredConsumer) : List ConsumerChange → Prop
  | added {codecs : List Codec} (hnew : d.name ∉ observed.map Consumer.name)
      (hcodecs : table.lookupOrAll d.codecs = .ok codecs) :
      d.ChangedBy table observed [.add ⟨d.name, codecs, d.effectiveReadFrom⟩]
  | changed {o : Consumer} {position : Option Timestamp} {codecs : Option (List Codec)}
      (ho : o ∈ observed) (hname : o.name = d.name)
      (hposition : ∀ t, t ∈ position ↔ t = d.effectiveReadFrom ∧ t ≠ o.readFrom)
      (hcodecs : ∀ list, list ∈ codecs ↔ d.codecs ≠ [] ∧ table.lookupAll d.codecs = .ok list) :
      d.ChangedBy table observed
        (position.toList.map (.setReadFrom d.name) ++ codecs.toList.map (.setCodecs d.name))

/-- Nothing of the topic has to change. -/
structure DeclaredTopic.SettledIn (table : CodecTable) (d : DeclaredTopic) (t : Topic) : Prop where
  settings : d.SettingsHold table t
  consumers : ∀ c ∈ d.consumers, c.SettledIn t.consumers

/-- What of a topic is compared with a declaration: its settings, and the consumers of the names
that are declared. -/
def DeclaredTopic.compared (d : DeclaredTopic) (t : Topic) : Topic :=
  { t with
    path := ""
    consumers := t.consumers.filter fun c => c.name ∈ d.consumers.map DeclaredConsumer.name }

/-- The errors with which one declaration of the topic at `path` is refused for one cause, when the
topic is created and when it is altered. -/
inductive SameRefusal (path : String) : Error → Error → Prop
  | unknownCodec (name : String) : SameRefusal path (.unknownCodec name) (.unknownCodec name)
  | duplicateConsumer (consumer : String) :
    SameRefusal path (.rejected (.duplicateTopicConsumer path consumer))
      (.rejected (.duplicateConsumer consumer))

end SchemaPlan
