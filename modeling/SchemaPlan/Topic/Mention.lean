import Mathlib.Data.List.Forall2
import SchemaPlan.Operation
import SchemaPlan.Topic.Basic

/-!
# Codecs that are mentioned and codecs that are used

A declaration of a topic mentions names of codecs and of consumers (`DeclaredTopic.mentions`), and
is refused at the first mention of a codec that is not in the table, or of a consumer for the second
time (`refusal?`). `Topic.usedCodecs` and `Operation.usedCodecs` are all codecs of what comes of a
declaration that is not refused, and `CodecTable.Reads` says which codecs a list of names stands
for.
-/

namespace SchemaPlan

/-! ## Names and codecs -/

/-- The text is the name of the codec, whatever the blanks around it and the case of its letters. -/
def Codec.DenotedBy (codec : Codec) (text : String) : Prop :=
  codec.name.toList = (Text.trim text).toList.map Char.toLower

instance (codec : Codec) (text : String) : Decidable (codec.DenotedBy text) :=
  inferInstanceAs (Decidable (_ = _))

/-- No codec of the table has the name. -/
def CodecTable.Unknown (table : CodecTable) (name : String) : Prop :=
  ∀ codec ∈ table.allowed, ¬codec.DenotedBy name

instance (table : CodecTable) (name : String) : Decidable (table.Unknown name) :=
  inferInstanceAs (Decidable (∀ codec ∈ table.allowed, _))

/-- The codecs that names stand for: one for each name, in order, and all of the table for no
names. -/
inductive CodecTable.Reads (table : CodecTable) : List String → List Codec → Prop
  | all : table.Reads [] table.allowed
  | listed {names : List String} {codecs : List Codec} (hne : names ≠ [])
    (h : List.Forall₂ (fun name codec => codec.DenotedBy name) names codecs) :
    table.Reads names codecs

/-! ## Mentions -/

/-- A name that a declaration of a topic mentions. -/
inductive Mention where
  | codec (name : String)
  | consumer (name : String)
  deriving Repr, DecidableEq

/-- The names that the declaration of a consumer mentions, in order. -/
def DeclaredConsumer.mentions (c : DeclaredConsumer) : List Mention :=
  .consumer c.name :: c.codecs.map .codec

/-- The names that the declaration of a topic mentions, in order. -/
def DeclaredTopic.mentions (t : DeclaredTopic) : List Mention :=
  t.codecs.map .codec ++ t.consumers.flatMap DeclaredConsumer.mentions

/-- The names of consumers among mentions, in order. -/
def mentionedConsumers : List Mention → List String
  | [] => []
  | .codec _ :: mentions => mentionedConsumers mentions
  | .consumer name :: mentions => name :: mentionedConsumers mentions

/-- The first mention of a codec that is not in the table, or of a consumer that is among `seen` or
has been mentioned before. -/
def CodecTable.refusal? (table : CodecTable) : List String → List Mention → Option Mention
  | _, [] => none
  | seen, .codec name :: mentions =>
    if table.Unknown name then some (.codec name) else table.refusal? seen mentions
  | seen, .consumer name :: mentions =>
    if name ∈ seen then some (.consumer name) else table.refusal? (name :: seen) mentions

/-- The error with which the declaration of the topic at `path` is refused for a mention. -/
def Mention.error (path : String) : Mention → Error
  | codec name => .unknownCodec name
  | consumer name => .rejected (.duplicateTopicConsumer path name)

/-! ## Codecs that are used -/

/-- All codecs of a topic and of its consumers. -/
def Topic.usedCodecs (t : Topic) : List Codec :=
  t.codecs ++ t.consumers.flatMap Consumer.codecs

/-- All codecs of an operation. -/
def Operation.usedCodecs : Operation → List Codec
  | createTopic topic => topic.usedCodecs
  | alterTopic _ settings => settings.codecs
  | changeConsumer _ (.add consumer) => consumer.codecs
  | changeConsumer _ (.setReadFrom _ _) => []
  | changeConsumer _ (.setCodecs _ codecs) => codecs
  | _ => []

/-- The codecs of an operation that alters a topic are those that are declared there: for the topic,
if it sets any, and for the consumer that it is about. -/
def Operation.CodecsDeclared (table : CodecTable) (d : DeclaredTopic) : Operation → Prop
  | alterTopic _ settings => settings.codecs ≠ [] → table.Reads d.codecs settings.codecs
  | changeConsumer _ (.add consumer) =>
    ∃ c ∈ d.consumers, c.name = consumer.name ∧ table.Reads c.codecs consumer.codecs
  | changeConsumer _ (.setCodecs name codecs) =>
    ∃ c ∈ d.consumers, c.name = name ∧ c.codecs ≠ [] ∧ table.Reads c.codecs codecs
  | _ => True

/-- The codecs of an operation are codecs of the table, and those that are declared there. -/
structure Operation.CodecsFrom (table : CodecTable) (d : DeclaredTopic) (operation : Operation) :
    Prop where
  allowed : ∀ codec ∈ operation.usedCodecs, codec ∈ table.allowed
  declared : operation.CodecsDeclared table d

end SchemaPlan
