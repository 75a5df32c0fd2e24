import SchemaPlan.Ddl.SplitPoint
import SchemaPlan.Ddl.StatementReader

/-!
# Keys of settings

`TableSettings.Sets` says which settings of a table have a value, by the keys they have in
statements. `Ddl.alteredSettings?` finds the settings of the statement that alters them; those of
the statement that creates a table are found by `Ddl.createdSettings?`.
-/

namespace SchemaPlan

/-- The setting of this key has a value. -/
inductive TableSettings.Sets (s : TableSettings) : String → Prop
  | ttl (h : s.ttl.isSome) : Sets s "TTL"
  | byLoad (h : (s.partitioning.getD {}).byLoad.isSome) : Sets s "AUTO_PARTITIONING_BY_LOAD"
  | bySize (h : (s.partitioning.getD {}).bySize.isSome) :
    Sets s "AUTO_PARTITIONING_BY_SIZE_ENABLED"
  | sizeThreshold (h : (s.partitioning.getD {}).sizeThreshold.isSome) :
    Sets s "AUTO_PARTITIONING_BY_SIZE"
  | uniformPartitions (h : (s.partitioning.getD {}).uniformPartitions.isSome) :
    Sets s "UNIFORM_PARTITIONS"
  | minPartitions (h : (s.partitioning.getD {}).minPartitions.isSome) :
    Sets s "AUTO_PARTITIONING_MIN_PARTITIONS_COUNT"
  | maxPartitions (h : (s.partitioning.getD {}).maxPartitions.isSome) :
    Sets s "AUTO_PARTITIONING_MAX_PARTITIONS_COUNT"
  | splitPoints (h : (s.partitioning.getD {}).splitPoints ≠ []) : Sets s "PARTITION_AT_KEYS"
  | replicas (h : (s.replication.bind Replication.readReplicas).isSome) :
    Sets s "READ_REPLICAS_SETTINGS"

/-- The settings of the statement that alters settings of a table. -/
def Ddl.alteredSettings? (statement : String) : Option (List (String × List Piece)) := do
  let (_, ps) ← takeQuoted? .name (← afterWord? "ALTER TABLE " (← regions? statement))
  readEntries? (← afterWord? " SET " ps)

end SchemaPlan
