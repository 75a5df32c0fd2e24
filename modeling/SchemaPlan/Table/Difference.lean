import SchemaPlan.Error
import SchemaPlan.Table.Basic

/-!
# Differences between tables

Each function compares one part of a declared table with the same part of an observed one and
says what has to be added, dropped or set. Columns are never dropped: `columnsToAdd` fails if an
observed column is not declared. Parts are matched by name; where a name is repeated, the last
entry counts on the side that is looked up.
-/

namespace SchemaPlan

/-! ## Columns -/

/-- The names of observed columns that are not declared. -/
def droppedColumns (declared observed : List Column) : List String :=
  (observed.map Column.name).filter (· ∉ declared.map Column.name)

/-- The declared columns that are not observed. -/
def columnsToAdd (declared observed : List Column) : Except Error (List Column) :=
  match droppedColumns declared observed with
  | [] => .ok (declared.filter fun c => c.name ∉ observed.map Column.name)
  | dropped => .error (.droppedColumns dropped)

/-! ## Indexes -/

/-- Indexes to add, and names of indexes to drop. -/
structure IndexDifference where
  add : List Index
  drop : List String
  deriving Repr, DecidableEq

/-- Whether the list has an index of the same name that holds the same data. -/
def Index.isAmong (i : Index) (indexes : List Index) : Bool :=
  (lastNamed? Index.name i.name indexes).any i.sameAs

/-- The declared indexes that are not observed as they are declared, and the observed ones that
are not declared. -/
def indexDifference (declared observed : List Index) : IndexDifference where
  add := declared.filter fun i => !i.isAmong observed
  drop := (observed.map Index.name).filter (· ∉ declared.map Index.name)

/-! ## Changefeeds -/

/-- Changefeeds to add, and names of changefeeds to drop. -/
structure ChangefeedDifference where
  add : List Changefeed
  drop : List String
  deriving Repr, DecidableEq

/-- Whether the list has a changefeed of the same name that carries the same records. -/
def Changefeed.isAmong (f : Changefeed) (feeds : List Changefeed) : Bool :=
  (lastNamed? Changefeed.name f.name feeds).any f.sameAs

/-- The declared changefeeds that are not observed as they are declared, and the observed ones
that are not declared as they are. -/
def changefeedDifference (declared observed : List Changefeed) : ChangefeedDifference where
  add := declared.filter fun f => !f.isAmong observed
  drop := (observed.filter fun f => !f.isAmong declared).map Changefeed.name

/-! ## Settings -/

/-- The declared value, unless it is the observed one. -/
def changed? {α : Type} [DecidableEq α] (declared observed : Option α) : Option α :=
  declared.filter fun a => observed ≠ some a

/-- The declared partitioning where it differs; what is fixed when a table is created does not
count. -/
def changedPartitioning (declared observed : Partitioning) : Partitioning where
  minPartitions := changed? declared.minPartitions observed.minPartitions
  maxPartitions := changed? declared.maxPartitions observed.maxPartitions
  byLoad := changed? declared.byLoad observed.byLoad
  bySize := changed? declared.bySize observed.bySize
  sizeThreshold := changed? declared.sizeThreshold observed.sizeThreshold

/-- Settings to set, and whether the expiry of rows is to be removed. -/
structure SettingsDifference where
  set : TableSettings
  resetTtl : Bool
  deriving Repr, DecidableEq

/-- Whether there is nothing to set or to remove. -/
def SettingsDifference.isEmpty (d : SettingsDifference) : Bool :=
  d.set.isEmpty && !d.resetTtl

/-- The declared settings that differ from the observed ones, and whether an expiry is observed
but not declared. -/
def settingsDifference (declared observed : TableSettings) : SettingsDifference where
  set := {
    ttl := changed? declared.ttl observed.ttl
    partitioning :=
      (declared.partitioning.map fun p =>
        changedPartitioning p (observed.partitioning.getD {})).filter fun p => !p.isEmpty
    replication :=
      (changed? (declared.replication.bind Replication.readReplicas)
        (observed.replication.bind Replication.readReplicas)).map fun s => ⟨some s⟩ }
  resetTtl := declared.ttl.isNone && observed.ttl.isSome

/-! ## Structure -/

/-- Columns and indexes to add, and names of indexes to drop. -/
structure TableDifference where
  columns : List Column
  indexes : IndexDifference
  deriving Repr, DecidableEq

/-- Whether there is nothing to add or to drop. -/
def TableDifference.isEmpty (d : TableDifference) : Bool :=
  d.columns.isEmpty && d.indexes.add.isEmpty && d.indexes.drop.isEmpty

/-- The columns and indexes in which a declared table differs from an observed one. -/
def tableDifference (declared observed : Table) : Except Error TableDifference := do
  let columns ← columnsToAdd declared.columns observed.columns
  return ⟨columns, indexDifference declared.indexes observed.indexes⟩

end SchemaPlan
