import SchemaPlan.Json.Form
import SchemaPlan.Timestamp.Reader
import SchemaPlan.Timestamp.Writer
import SchemaPlan.Topic.Basic

/-!
# JSON form of topics

For each part of a topic, `ofJson?` reads it from a JSON value and `toJson` writes it. A read
position, number of partitions or retention period that is absent is left out, except among
settings, which write `null` for it. Read positions are texts, so `asRead` gives each part that has
one with the positions that are read from their texts.
-/

namespace SchemaPlan

open Json

def Codec.ofJson? : Value → Option Codec :=
  Value.case? (Codec.all.map fun codec => (codec.name, codec))

def Codec.toJson (codec : Codec) : Value :=
  .string codec.name

def Timestamp.ofJson? (v : Value) : Option Timestamp :=
  v.string?.bind Timestamp.read?

def Timestamp.toJson (t : Timestamp) : Value :=
  .string t.write

/-! ## Consumers -/

/-- The fields of a consumer, declared or not. -/
def Consumer.fieldNames : List String :=
  ["name", "supported_codecs", "read_from"]

def Consumer.ofJson? (v : Value) : Option Consumer := do
  let fields ← v.fields? fieldNames
  return {
    name := ← fields.required? "name" Value.string?
    codecs := ← fields.required? "supported_codecs" (Value.list? Codec.ofJson?)
    readFrom := ← fields.required? "read_from" Timestamp.ofJson? }

def Consumer.toJson (c : Consumer) : Value :=
  .object [("name", .string c.name), ("supported_codecs", .list Codec.toJson c.codecs),
    ("read_from", c.readFrom.toJson)]

def DeclaredConsumer.ofJson? (v : Value) : Option DeclaredConsumer := do
  let fields ← v.fields? Consumer.fieldNames
  return {
    name := ← fields.required? "name" Value.string?
    codecs := ← fields.withDefault? "supported_codecs" [] (Value.list? Value.string?)
    readFrom := ← fields.optional? "read_from" Timestamp.ofJson? }

def DeclaredConsumer.toJson (c : DeclaredConsumer) : Value :=
  .object <|
    [("name", .string c.name), ("supported_codecs", .strings c.codecs)]
      ++ memberIfSome "read_from" Timestamp.toJson c.readFrom

/-! ## Topics -/

/-- The fields of a topic, declared or not. -/
def Topic.fieldNames : List String :=
  ["path", "partitions_count", "retention_period", "supported_codecs", "consumers"]

def Topic.ofJson? (v : Value) : Option Topic := do
  let fields ← v.fields? fieldNames
  return {
    path := ← fields.required? "path" Value.string?
    partitions := ← fields.optional? "partitions_count" Value.word?
    retention := ← fields.optional? "retention_period" Value.string?
    codecs := ← fields.withDefault? "supported_codecs" [] (Value.list? Codec.ofJson?)
    consumers := ← fields.withDefault? "consumers" [] (Value.list? Consumer.ofJson?) }

def Topic.toJson (t : Topic) : Value :=
  .object <|
    [("path", .string t.path)]
      ++ memberIfSome "partitions_count" .word t.partitions
      ++ memberIfSome "retention_period" .string t.retention
      ++ [("supported_codecs", .list Codec.toJson t.codecs),
        ("consumers", .list Consumer.toJson t.consumers)]

def DeclaredTopic.ofJson? (v : Value) : Option DeclaredTopic := do
  let fields ← v.fields? Topic.fieldNames
  return {
    path := ← fields.required? "path" Value.string?
    partitions := ← fields.optional? "partitions_count" Value.word?
    retention := ← fields.optional? "retention_period" Value.string?
    codecs := ← fields.withDefault? "supported_codecs" [] (Value.list? Value.string?)
    consumers := ← fields.withDefault? "consumers" [] (Value.list? DeclaredConsumer.ofJson?) }

def DeclaredTopic.toJson (t : DeclaredTopic) : Value :=
  .object <|
    [("path", .string t.path)]
      ++ memberIfSome "partitions_count" .word t.partitions
      ++ memberIfSome "retention_period" .string t.retention
      ++ [("supported_codecs", .strings t.codecs),
        ("consumers", .list DeclaredConsumer.toJson t.consumers)]

/-- The fields of the settings of a topic. -/
def TopicSettings.fieldNames : List String :=
  ["partitions_count", "retention_period", "supported_codecs"]

def TopicSettings.ofJson? (v : Value) : Option TopicSettings := do
  let fields ← v.fields? fieldNames
  return {
    partitions := ← fields.optional? "partitions_count" Value.word?
    retention := ← fields.optional? "retention_period" Value.string?
    codecs := ← fields.required? "supported_codecs" (Value.list? Codec.ofJson?) }

def TopicSettings.toJson (s : TopicSettings) : Value :=
  .object [("partitions_count", .orNull .word s.partitions),
    ("retention_period", .orNull .string s.retention),
    ("supported_codecs", .list Codec.toJson s.codecs)]

/-! ## Changes of consumers -/

/-- The fields of a change of a read position. -/
def ConsumerChange.readFromFieldNames : List String :=
  ["name", "read_from"]

/-- The fields of a change of codecs. -/
def ConsumerChange.codecsFieldNames : List String :=
  ["name", "codecs"]

/-- A change of a consumer, where `fieldsOf` takes the fields of a change of a position or of
codecs from a value. -/
def ConsumerChange.ofJsonWith? (fieldsOf : List String → Value → Option Fields) :
    Value → Option ConsumerChange
  | .object [(tag, v)] =>
    match tag with
    | "AddConsumer" => (Consumer.ofJson? v).map .add
    | "SetReadFrom" => do
      let fields ← fieldsOf readFromFieldNames v
      return .setReadFrom (← fields.required? "name" Value.string?)
        (← fields.required? "read_from" Timestamp.ofJson?)
    | "SetCodecs" => do
      let fields ← fieldsOf codecsFieldNames v
      return .setCodecs (← fields.required? "name" Value.string?)
        (← fields.required? "codecs" (Value.list? Codec.ofJson?))
    | _ => none
  | _ => none

def ConsumerChange.ofJson? : Value → Option ConsumerChange :=
  ofJsonWith? Value.fields?

/-- A change of a consumer, where a change of a position or of codecs has to give its fields by
name; an added consumer may be any record. -/
def ConsumerChange.ofNamedJson? : Value → Option ConsumerChange :=
  ofJsonWith? Value.namedFields?

def ConsumerChange.toJson : ConsumerChange → Value
  | add consumer => .object [("AddConsumer", consumer.toJson)]
  | setReadFrom name readFrom =>
    .object [("SetReadFrom", .object [("name", .string name), ("read_from", readFrom.toJson)])]
  | setCodecs name codecs =>
    .object [("SetCodecs",
      .object [("name", .string name), ("codecs", .list Codec.toJson codecs)])]

/-! ## Read positions as they are read -/

def Consumer.asRead (c : Consumer) : Consumer :=
  { c with readFrom := c.readFrom.asRead }

def DeclaredConsumer.asRead (c : DeclaredConsumer) : DeclaredConsumer :=
  { c with readFrom := c.readFrom.map Timestamp.asRead }

def Topic.asRead (t : Topic) : Topic :=
  { t with consumers := t.consumers.map Consumer.asRead }

def DeclaredTopic.asRead (t : DeclaredTopic) : DeclaredTopic :=
  { t with consumers := t.consumers.map DeclaredConsumer.asRead }

/-- The read position that a change gives to a consumer, if it gives one. -/
def ConsumerChange.readFrom? : ConsumerChange → Option Timestamp
  | add consumer => some consumer.readFrom
  | setReadFrom _ readFrom => some readFrom
  | setCodecs _ _ => none

def ConsumerChange.asRead : ConsumerChange → ConsumerChange
  | add consumer => add consumer.asRead
  | setReadFrom name readFrom => setReadFrom name readFrom.asRead
  | setCodecs name codecs => setCodecs name codecs

end SchemaPlan
