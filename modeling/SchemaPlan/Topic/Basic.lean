import SchemaPlan.Codec
import SchemaPlan.Timestamp

/-!
# Topics

A `Topic` is the description of a topic as it is: its settings and its consumers, each with its
codecs and its read position. A `DeclaredTopic` is what a declaration says, where names of codecs
are free texts and much may be left out. `DeclaredTopic.resolve` fills in the defaults: every
allowed codec, and a read position at the epoch.
-/

namespace SchemaPlan

/-- A consumer of a topic, with the instant it reads from. -/
structure Consumer where
  name : String
  codecs : List Codec
  readFrom : Timestamp
  deriving DecidableEq

/-- A consumer as it is declared; no codecs stand for all that are allowed. -/
structure DeclaredConsumer where
  name : String
  codecs : List String := []
  readFrom : Option Timestamp := none
  deriving DecidableEq

/-- The description of a topic. -/
structure Topic where
  path : String
  partitions : Option UInt64 := none
  retention : Option String := none
  codecs : List Codec := []
  consumers : List Consumer := []
  deriving DecidableEq

/-- A topic as it is declared; no codecs stand for all that are allowed. -/
structure DeclaredTopic where
  path : String
  partitions : Option UInt64 := none
  retention : Option String := none
  codecs : List String := []
  consumers : List DeclaredConsumer := []
  deriving DecidableEq

/-- Settings that can change on a topic that exists; no codecs stand for no change. -/
structure TopicSettings where
  partitions : Option UInt64 := none
  retention : Option String := none
  codecs : List Codec := []
  deriving Repr, DecidableEq

/-- A change of one consumer of a topic that exists. -/
inductive ConsumerChange where
  | add (consumer : Consumer)
  | setReadFrom (name : String) (readFrom : Timestamp)
  | setCodecs (name : String) (codecs : List Codec)
  deriving DecidableEq

/-- The name of the consumer that a change is about. -/
def ConsumerChange.consumer : ConsumerChange → String
  | add consumer => consumer.name
  | setReadFrom name _ => name
  | setCodecs name _ => name

/-- Whether no setting is there. -/
def TopicSettings.isEmpty (s : TopicSettings) : Bool :=
  s.partitions.isNone && s.retention.isNone && s.codecs.isEmpty

/-! ## Defaults -/

/-- The codecs that `names` denote, or all that are allowed for no names. -/
def CodecTable.lookupOrAll (table : CodecTable) (names : List String) :
    Except Error (List Codec) :=
  if names.isEmpty then .ok table.allowed else table.lookupAll names

namespace DeclaredConsumer

/-- The read position to set: whole seconds, as statements carry them, and the epoch if none is
declared. -/
def effectiveReadFrom (c : DeclaredConsumer) : Timestamp :=
  match c.readFrom with
  | some t => t.wholeSeconds
  | none => .epoch

/-- The consumer that a declaration stands for. -/
def resolve (table : CodecTable) (c : DeclaredConsumer) : Except Error Consumer := do
  return ⟨c.name, ← table.lookupOrAll c.codecs, c.effectiveReadFrom⟩

/-- The consumers that declarations stand for, none of which may be called as one of `seen` or
as one before it; `repeated` is the error for a name that is. -/
def resolveAll (table : CodecTable) (repeated : String → Error) :
    List String → List DeclaredConsumer → Except Error (List Consumer)
  | _, [] => .ok []
  | seen, c :: consumers =>
    if c.name ∈ seen then .error (repeated c.name)
    else do
      let consumer ← c.resolve table
      let rest ← resolveAll table repeated (c.name :: seen) consumers
      return consumer :: rest

end DeclaredConsumer

/-- The topic that a declaration stands for. -/
def DeclaredTopic.resolve (table : CodecTable) (t : DeclaredTopic) : Except Error Topic := do
  let codecs ← table.lookupOrAll t.codecs
  let consumers ← DeclaredConsumer.resolveAll table
    (fun name => .rejected (.duplicateTopicConsumer t.path name)) [] t.consumers
  return ⟨t.path, t.partitions, t.retention, codecs, consumers⟩

end SchemaPlan
