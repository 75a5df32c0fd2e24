import SchemaPlan.Operation.Effect
import SchemaPlan.Plan

/-!
# What altering a table must not touch

`Table.Preserves` says what a plan for a table must keep of it, whatever else the plan does: the
columns that are there, everything that no statement can alter, and the settings about which the
declaration says nothing. `Operation.index?` and `Operation.changefeed?` name the one index or
changefeed that an operation is about.
-/

namespace SchemaPlan

/-- The name of the index that an operation adds or drops. -/
def Operation.index? : Operation → Option String
  | addIndex _ index => some index.name
  | dropIndex _ name => some name
  | _ => none

/-- The name of the changefeed that an operation adds or drops. -/
def Operation.changefeed? : Operation → Option String
  | addChangefeed _ changefeed => some changefeed.name
  | dropChangefeed _ name => some name
  | _ => none

/-- The new partitioning is the old one in what is fixed when a table is created, and in the
fields that are not declared. -/
structure Partitioning.Preserves (declared old new : Partitioning) : Prop where
  uniformPartitions : new.uniformPartitions = old.uniformPartitions
  splitPoints : new.splitPoints = old.splitPoints
  minPartitions : declared.minPartitions = none → new.minPartitions = old.minPartitions
  maxPartitions : declared.maxPartitions = none → new.maxPartitions = old.maxPartitions
  byLoad : declared.byLoad = none → new.byLoad = old.byLoad
  bySize : declared.bySize = none → new.bySize = old.bySize
  sizeThreshold : declared.sizeThreshold = none → new.sizeThreshold = old.sizeThreshold

/-- The table `new` is `old` in what no statement alters and in what is not declared; further
columns come after the old ones. -/
structure Table.Preserves (options : PlanOptions) (declared old new : Table) : Prop where
  path : new.path = old.path
  columns : old.columns <+: new.columns
  primaryKey : new.primaryKey = old.primaryKey
  families : new.families = old.families
  attributes : new.attributes = old.attributes
  partitioning : (declared.partitioning.getD {}).Preserves (old.partitioning.getD {})
    (new.partitioning.getD {})
  replication : declared.replication.bind Replication.readReplicas = none →
    new.replication.bind Replication.readReplicas = old.replication.bind Replication.readReplicas
  settings : options.alterSettings = false → new.settings = old.settings

end SchemaPlan
