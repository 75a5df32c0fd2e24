import SchemaPlan.Table.Basic

/-!
# Tables as they are declared

What it means for an observed table to be as a declaration asks. `Table.HoldsIn` compares the names
of columns, the indexes and changefeeds of each name, and the settings; a setting that is not
declared holds whatever it is, but for the expiry of rows. `Table.compared` is a table without
everything else, so tables that are the same in it are told apart by no comparison.
-/

namespace SchemaPlan

/-! ## Parts that are as declared -/

/-- The lists have the same names, and entries of one name are related. -/
structure SameNamed {α : Type} (nameOf : α → String) (related : α → α → Prop) (l m : List α) :
    Prop where
  names : ∀ name, name ∈ l.map nameOf ↔ name ∈ m.map nameOf
  related : ∀ a ∈ l, ∀ b ∈ m, nameOf a = nameOf b → related a b

/-- The indexes have the same key columns in order and cover the same columns in any order. -/
structure Index.HoldsIn (declared observed : Index) : Prop where
  columns : declared.columns = observed.columns
  cover : ∀ column, column ∈ declared.cover ↔ column ∈ observed.cover

/-- The changefeeds carry the same records. -/
structure Changefeed.HoldsIn (declared observed : Changefeed) : Prop where
  mode : declared.mode = observed.mode
  format : declared.format = observed.format
  virtualTimestamps : declared.virtualTimestamps = observed.virtualTimestamps
  retention : declared.retention = observed.retention

/-- What is declared of the partitioning is observed, as far as it can be altered. -/
structure Partitioning.HoldsIn (declared observed : Partitioning) : Prop where
  minPartitions : ∀ n, declared.minPartitions = some n → observed.minPartitions = some n
  maxPartitions : ∀ n, declared.maxPartitions = some n → observed.maxPartitions = some n
  byLoad : ∀ enabled, declared.byLoad = some enabled → observed.byLoad = some enabled
  bySize : ∀ enabled, declared.bySize = some enabled → observed.bySize = some enabled
  sizeThreshold : ∀ n, declared.sizeThreshold = some n → observed.sizeThreshold = some n

/-- The settings are as they are declared: the expiry of rows is the same, and the other settings
are those that are declared. -/
structure TableSettings.HoldsIn (declared observed : TableSettings) : Prop where
  ttl : declared.ttl = observed.ttl
  partitioning : (declared.partitioning.getD {}).HoldsIn (observed.partitioning.getD {})
  replicas : ∀ replicas, declared.replication.bind Replication.readReplicas = some replicas →
    observed.replication.bind Replication.readReplicas = some replicas

/-- The observed table is as it is declared, in everything that is compared. -/
structure Table.HoldsIn (declared observed : Table) : Prop where
  columns : ∀ name, name ∈ declared.columnNames ↔ name ∈ observed.columnNames
  indexes : SameNamed Index.name Index.HoldsIn declared.indexes observed.indexes
  changefeeds :
    SameNamed Changefeed.name Changefeed.HoldsIn declared.changefeeds observed.changefeeds
  settings : declared.settings.HoldsIn observed.settings

/-! ## What is compared -/

/-- The partitioning without what is fixed when a table is created. -/
def Partitioning.compared (p : Partitioning) : Partitioning :=
  { p with uniformPartitions := none, splitPoints := [] }

/-- The table without what is never compared: of columns only the names are left, of indexes and
changefeeds all but the kind and the initial scan, and nothing of the path, the primary key, the
families and the attributes. -/
def Table.compared (t : Table) : Table where
  path := ""
  columns := t.columns.map fun c => { name := c.name, type := "" }
  indexes := t.indexes.map fun i => { i with kind := .sync }
  ttl := t.ttl
  partitioning := t.partitioning.map Partitioning.compared
  replication := t.replication
  changefeeds := t.changefeeds.map fun f => { f with initialScan := false }

end SchemaPlan
