import SchemaPlan.Table.Basic
import SchemaPlan.Topic.Basic

/-!
# Operations

An `Operation` is one change of the database that one statement makes.
-/

namespace SchemaPlan

/-- One change of the database; tables and topics are named by their paths. -/
inductive Operation where
  | createTable (table : Table)
  | addColumn (table : String) (column : Column)
  | addIndex (table : String) (index : Index)
  | dropIndex (table name : String)
  | addChangefeed (table : String) (changefeed : Changefeed)
  | dropChangefeed (table name : String)
  | setTableSettings (table : String) (settings : TableSettings)
  | resetTtl (table : String)
  | createTopic (topic : Topic)
  | alterTopic (topic : String) (settings : TopicSettings)
  | changeConsumer (topic : String) (change : ConsumerChange)
  deriving DecidableEq

namespace Operation

/-- The path of the table or topic that an operation changes. -/
def target : Operation → String
  | createTable table => table.path
  | addColumn table _ => table
  | addIndex table _ => table
  | dropIndex table _ => table
  | addChangefeed table _ => table
  | dropChangefeed table _ => table
  | setTableSettings table _ => table
  | resetTtl table => table
  | createTopic topic => topic.path
  | alterTopic topic _ => topic
  | changeConsumer topic _ => topic

/-- Whether an operation removes something that is there. -/
def isDestructive : Operation → Bool
  | dropIndex .. => true
  | dropChangefeed .. => true
  | resetTtl .. => true
  | _ => false

end Operation

end SchemaPlan
