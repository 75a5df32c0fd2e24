import SchemaPlan.Operation.Effect

/-!
# Executable operations

`Operation.Executable` says when an operation can be executed on a table that exists: what it
adds is not there yet, what it drops or resets is, and the columns it refers to are there.
`Table.Executes` says it of a list of operations, each in the state that the ones before it leave.
`Operation.FamilyThere` says that an added column is in a family that is there.
`ConsumerChange.Executable` and `Operation.ExecutableOnTopic` say when changes of consumers and
operations on topics can be executed.
-/

namespace SchemaPlan

/-- Whether an operation on a table can be executed in the state `t` of the table. -/
def Operation.Executable (t : Table) : Operation → Prop
  | addColumn _ column => column.name ∉ t.columnNames
  | addIndex _ index =>
    index.name ∉ t.indexes.map Index.name
      ∧ ∀ column ∈ index.columns ++ index.cover, column ∈ t.columnNames
  | dropIndex _ name => name ∈ t.indexes.map Index.name
  | addChangefeed _ changefeed => changefeed.name ∉ t.changefeeds.map Changefeed.name
  | dropChangefeed _ name => name ∈ t.changefeeds.map Changefeed.name
  | setTableSettings _ settings => ∀ ttl ∈ settings.ttl, ttl.column ∈ t.columnNames
  | resetTtl _ => t.ttl.isSome
  | _ => False

/-- The family of a column that an operation adds is there in the state `t` of the table. -/
def Operation.FamilyThere (t : Table) : Operation → Prop
  | addColumn _ column => ∀ family, column.family = some family →
    family ∈ t.families.map Family.name
  | _ => True

/-- Whether operations can be executed one after the other, from the state `t` on. -/
def Table.Executes (t : Table) : List Operation → Prop
  | [] => True
  | operation :: operations =>
    operation.Executable t ∧ Executes (operation.onTable t) operations

/-! ## Topics -/

/-- Whether a change can be made to the consumers of a topic: a consumer to add is not there, and
one to change is. -/
def ConsumerChange.Executable (consumers : List Consumer) : ConsumerChange → Prop
  | add consumer => consumer.name ∉ consumers.map Consumer.name
  | setReadFrom name _ => name ∈ consumers.map Consumer.name
  | setCodecs name _ => name ∈ consumers.map Consumer.name

/-- Whether an operation on a topic can be executed in the state `t` of the topic. -/
def Operation.ExecutableOnTopic (t : Topic) : Operation → Prop
  | alterTopic _ _ => True
  | changeConsumer _ change => change.Executable t.consumers
  | _ => False

end SchemaPlan
