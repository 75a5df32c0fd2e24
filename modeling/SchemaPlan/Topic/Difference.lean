import SchemaPlan.Named
import SchemaPlan.Topic.Basic

/-!
# Differences between topics

`topicDifference` says which settings of an observed topic have to change, and
`consumerChanges` which consumers have to be added or changed. What a declaration leaves out is
left alone, and so are observed consumers that are not declared.
-/

namespace SchemaPlan

/-- The declared settings that differ from the observed ones; codecs are compared as sets. -/
def topicDifference (table : CodecTable) (declared : DeclaredTopic) (observed : Topic) :
    Except Error TopicSettings := do
  let codecs ← table.lookupAll declared.codecs
  return {
    partitions := declared.partitions.filter fun n => observed.partitions ≠ some n
    retention := declared.retention.filter fun s => observed.retention ≠ some s
    codecs := if sameElements codecs observed.codecs then [] else codecs }

/-- The changes that bring an observed consumer to its declaration. Codecs are set whenever some
are declared. -/
def changesOf (table : CodecTable) (declared : DeclaredConsumer) (observed : Consumer) :
    Except Error (List ConsumerChange) := do
  let codecs ← table.lookupAll declared.codecs
  let readFrom := declared.effectiveReadFrom
  return (if readFrom = observed.readFrom then []
      else [.setReadFrom declared.name readFrom])
    ++ (if codecs.isEmpty then [] else [.setCodecs declared.name codecs])

/-- The changes that one declared consumer asks for. -/
def changesFor (table : CodecTable) (observed : List Consumer) (declared : DeclaredConsumer) :
    Except Error (List ConsumerChange) :=
  match lastNamed? Consumer.name declared.name observed with
  | some consumer => changesOf table declared consumer
  | none => (declared.resolve table).map fun consumer => [.add consumer]

/-- The changes that declared consumers ask for, none of which may be called as one of `seen` or
as one before it. -/
def consumerChangesAfter (table : CodecTable) (observed : List Consumer) :
    List String → List DeclaredConsumer → Except Error (List ConsumerChange)
  | _, [] => .ok []
  | seen, c :: declared =>
    if c.name ∈ seen then .error (.rejected (.duplicateConsumer c.name))
    else do
      let changes ← changesFor table observed c
      let rest ← consumerChangesAfter table observed (c.name :: seen) declared
      return changes ++ rest

/-- The changes that bring observed consumers to their declarations, in the order of the
declarations. -/
def consumerChanges (table : CodecTable) (declared : List DeclaredConsumer)
    (observed : List Consumer) : Except Error (List ConsumerChange) :=
  consumerChangesAfter table observed [] declared

end SchemaPlan
