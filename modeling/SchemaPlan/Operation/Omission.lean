import SchemaPlan.Operation.Executable
import SchemaPlan.Plan

/-!
# Leaving out an operation of a plan

`Operation.Blocked` says that an addition cannot be made in a state of a table. `Table.Misses` says
what happens if the operation between two parts of a plan is left out: an addition that comes later
is blocked, or the table ends in a state from which there is something left to plan.
`TableSettings.ChangesOnly` says of settings to set that each of them is declared and is not the
one that is observed.
-/

namespace SchemaPlan

/-- An addition that cannot be made in the state `t` of the table: its name is still there, or a
column of an index is missing. -/
def Operation.Blocked (t : Table) : Operation → Prop
  | addColumn _ column => column.name ∈ t.columnNames
  | addIndex _ index =>
    index.name ∈ t.indexes.map Index.name
      ∨ ∃ column ∈ index.columns ++ index.cover, column ∉ t.columnNames
  | addChangefeed _ changefeed => changefeed.name ∈ t.changefeeds.map Changefeed.name
  | _ => False

/-- What happens if the operation between `before` and `after` is left out. -/
inductive Table.Misses (declared observed : Table) (before after : List Operation) : Prop
  /-- An operation that comes later is blocked. -/
  | blocked {mid rest : List Operation} {later : Operation} (hafter : after = mid ++ later :: rest)
    (hblocked : later.Blocked (observed.afterAll (before ++ mid)))
  /-- The end is a state from which there is something left to plan. -/
  | unsettled {remaining : List Operation}
    (hplan : tableOperations {} declared (observed.afterAll (before ++ after)) = .ok remaining)
    (hne : remaining ≠ [])

/-- A value that is set is declared, and another one or none is observed. -/
def Changes {α : Type} (set declared observed : Option α) : Prop :=
  ∀ a, set = some a → declared = some a ∧ observed ≠ some a

/-- The fields that are set are declared and differ from the observed ones. What is fixed when a
table is created is not set. -/
structure Partitioning.ChangesOnly (set declared observed : Partitioning) : Prop where
  uniformPartitions : set.uniformPartitions = none
  minPartitions : Changes set.minPartitions declared.minPartitions observed.minPartitions
  maxPartitions : Changes set.maxPartitions declared.maxPartitions observed.maxPartitions
  byLoad : Changes set.byLoad declared.byLoad observed.byLoad
  bySize : Changes set.bySize declared.bySize observed.bySize
  sizeThreshold : Changes set.sizeThreshold declared.sizeThreshold observed.sizeThreshold
  splitPoints : set.splitPoints = []

/-- The settings that are set are declared and differ from the observed ones, and no group of them
is there without a field. -/
structure TableSettings.ChangesOnly (set declared observed : TableSettings) : Prop where
  ttl : Changes set.ttl declared.ttl observed.ttl
  partitioning : ∀ p, set.partitioning = some p → p.isEmpty = false ∧
    p.ChangesOnly (declared.partitioning.getD {}) (observed.partitioning.getD {})
  replication : ∀ r, set.replication = some r → r.readReplicas ≠ none ∧
    Changes r.readReplicas (declared.replication.bind Replication.readReplicas)
      (observed.replication.bind Replication.readReplicas)

end SchemaPlan
