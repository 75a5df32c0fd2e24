import SchemaPlan.Ddl.Table
import SchemaPlan.Ddl.Topic
import SchemaPlan.Operation

/-!
# Statements of operations

`Operation.statement` is the text of the one statement that makes an operation, in the dialect
`dialect`; `Operation.phrase` is the same with its quoted names and texts marked.
-/

namespace SchemaPlan

/-- The dialect that statements are written in. -/
def Ddl.dialect : String := "yql"

/-- The statement of an operation, with its quoted names and texts marked. -/
def Operation.phrase : Operation → Except Error Ddl.Phrase
  | createTable table => Ddl.createTable table
  | addColumn table column => Ddl.addColumn table column
  | addIndex table index => Ddl.addIndex table index
  | dropIndex table name => Ddl.dropIndex table name
  | addChangefeed table changefeed => Ddl.addChangefeed table changefeed
  | dropChangefeed table name => Ddl.dropChangefeed table name
  | setTableSettings table settings => Ddl.setTableSettings table settings
  | resetTtl table => Ddl.resetTtl table
  | createTopic topic => Ddl.createTopic topic
  | alterTopic topic settings => Ddl.alterTopic topic settings
  | changeConsumer topic change => Ddl.changeConsumer topic change

/-- The statement of an operation. -/
def Operation.statement (operation : Operation) : Except Error String :=
  operation.phrase.map Ddl.Phrase.write

/-- The statements of operations, in order; the first that cannot be written is an error. -/
def statements (operations : List Operation) : Except Error (List String) :=
  operations.mapM Operation.statement

end SchemaPlan
