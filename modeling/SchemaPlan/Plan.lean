import SchemaPlan.Ddl.Statement
import SchemaPlan.Table.Difference
import SchemaPlan.Table.Validation
import SchemaPlan.Topic.Difference

/-!
# Plans

A `Plan` holds the statements that bring an object to its declaration. `tableOperations` and
`topicOperations` are the operations that an object which exists needs, in an order in which each
can be made: columns before the indexes over them, drops before additions of the same name,
settings last. `planTable` and `planTopic` choose between creating, altering and doing nothing.
-/

namespace SchemaPlan

/-- What is to be done to bring an object to its declaration. -/
inductive Plan where
  | create (statement : String)
  | alter (statements : List String)
  | upToDate
  deriving Repr, DecidableEq

namespace Plan

/-- The statements of a plan, in order. -/
def statements : Plan → List String
  | create statement => [statement]
  | alter statements => statements
  | upToDate => []

/-- Whether there is nothing to do. -/
def isUpToDate : Plan → Bool
  | upToDate => true
  | _ => false

/-- The plan that makes operations on an object that exists. -/
def ofOperations (operations : List Operation) : Except Error Plan :=
  if operations.isEmpty then .ok .upToDate
  else (SchemaPlan.statements operations).map alter

end Plan

/-- What a plan for a table may do. -/
structure PlanOptions where
  /-- Drop an index that is declared differently, before it is added as declared. -/
  dropChangedIndexes : Bool := true
  /-- Change the expiry of rows, the partitioning and the replication. -/
  alterSettings : Bool := true
  deriving Repr, DecidableEq

/-! ## Tables -/

/-- The names of indexes to add that are observed, and so have to be dropped before. -/
def changedIndexes (toAdd observed : List Index) : List String :=
  (toAdd.map Index.name).filter (· ∈ observed.map Index.name)

/-- The operations that change indexes. -/
def indexOperations (options : PlanOptions) (table : String) (d : IndexDifference)
    (observed : List Index) : List Operation :=
  d.drop.map (.dropIndex table)
    ++ (if options.dropChangedIndexes then
        (changedIndexes d.add observed).map (.dropIndex table)
      else [])
    ++ d.add.map (.addIndex table)

/-- The operations that change changefeeds. -/
def changefeedOperations (table : String) (d : ChangefeedDifference) : List Operation :=
  d.drop.map (.dropChangefeed table) ++ d.add.map (.addChangefeed table)

/-- The operations that change settings. -/
def settingsOperations (options : PlanOptions) (table : String) (d : SettingsDifference) :
    List Operation :=
  if options.alterSettings then
    (if d.set.isEmpty then [] else [.setTableSettings table d.set])
      ++ (if d.resetTtl then [.resetTtl table] else [])
  else []

/-- The operations that bring an observed table to its declaration. -/
def tableOperations (options : PlanOptions) (declared observed : Table) :
    Except Error (List Operation) := do
  let d ← tableDifference declared observed
  return d.columns.map (.addColumn declared.path)
    ++ indexOperations options declared.path d.indexes observed.indexes
    ++ changefeedOperations declared.path
      (changefeedDifference declared.changefeeds observed.changefeeds)
    ++ settingsOperations options declared.path
      (settingsDifference declared.settings observed.settings)

/-- The plan for a declared table, given what is observed. -/
def planTable (options : PlanOptions) (declared : Table) (observed : Option Table) :
    Except Error Plan := do
  declared.validate
  match observed with
  | none => return .create (← (Operation.createTable declared).statement)
  | some observed => Plan.ofOperations (← tableOperations options declared observed)

/-! ## Topics -/

/-- The operations that bring an observed topic to its declaration. -/
def topicOperations (table : CodecTable) (declared : DeclaredTopic) (observed : Topic) :
    Except Error (List Operation) := do
  let settings ← topicDifference table declared observed
  let changes ← consumerChanges table declared.consumers observed.consumers
  return (if settings.isEmpty then [] else [.alterTopic declared.path settings])
    ++ changes.map (.changeConsumer declared.path)

/-- The plan for a declared topic, given what is observed. -/
def planTopic (table : CodecTable) (declared : DeclaredTopic) (observed : Option Topic) :
    Except Error Plan := do
  if declared.path.isEmpty then throw (.rejected .emptyTopicPath)
  match observed with
  | none => return .create (← (Operation.createTopic (← declared.resolve table)).statement)
  | some observed => Plan.ofOperations (← topicOperations table declared observed)

end SchemaPlan
