import SchemaPlan.Ddl.Draft
import SchemaPlan.Operation.Written
import SchemaPlan.Plan

/-!
# What can be wrong with an operation

A fault is a reason for which something cannot be written, given with the error that reports it.
`Operation.Fault` has those of an operation: a name or text that may not stand between its quotes,
a type of a column that may not stand in a statement, and what the creation of a table writes
without quotes. `Operation.Complete` says that no part is missing that the statement needs, and
`PlanFault` has the reasons for which a table cannot be planned.
-/

namespace SchemaPlan

open Ddl

/-! ## Clauses -/

/-- A content has a character that its quotes do not admit. -/
def Ddl.Quotation.Fault (q : Quotation) (e : Error) : Prop :=
  (∃ c ∈ q.content.toList, q.quote.admits c = false) ∧ e = .rejected (q.quote.refusal q.content)

/-- A name or text of a draft may not stand between its quotes. -/
def Ddl.QuotingFault (d : Draft) (e : Error) : Prop :=
  ∃ q, .quoted q ∈ d ∧ q.Fault e

/-- Without the blanks around it, the type of a column is empty or has a character that types do
not have. -/
def Column.TypeFault (c : Column) (e : Error) : Prop :=
  let type := Text.dropEnds Text.isBlank c.type.toList
  (type = [] ∨ ∃ char ∈ type, isTypeChar char = false) ∧ e = .rejected (.invalidType c.name c.type)

/-- Whether a text is a value of the type of a column, which has to be one of `literalTypes`. -/
def Column.hasValue (c : Column) (literal : String) : Bool :=
  match literalTypes.lookup c.baseType with
  | some (.integer range) => (range.read? (Text.dropEnds Text.isBlank literal.toList)).isSome
  | some .bool => (readBool? literal.toList).isSome
  | some .text => true
  | none => false

/-- A split point has no value, more values than the key has columns, or a value that is not of
the type of its column. -/
inductive SplitPointFault (key : List Column) (point : List String) : Error → Prop
  | size (h : point = [] ∨ key.length < point.length) :
    SplitPointFault key point (.rejected (.splitPointSize point.length key.length))
  | literal {c : Column} {literal : String} (h : (c, literal) ∈ key.zip point)
    (hvalue : c.hasValue literal = false) :
    SplitPointFault key point (.invalidLiteral c.name c.type literal)

/-- A table has an attribute whose key may not stand in a statement, or a split point that cannot
be written. -/
inductive Table.CreationFault (t : Table) : Error → Prop
  | attributeKey {entry : String × String} (h : entry ∈ t.attributes.entries)
    (hkey : isAttributeKey entry.1 = false) :
    CreationFault t (.rejected (.invalidAttribute entry.1))
  | splitPoint {p : Partitioning} {point : List String} {e : Error} (h : t.partitioning = some p)
    (hpoint : point ∈ p.splitPoints)
    (hfault : SplitPointFault (t.primaryKey.filterMap t.column?) point e) : CreationFault t e

/-! ## Operations -/

namespace Operation

/-- The columns that the statement of an operation defines. -/
def columns : Operation → List Column
  | createTable table => table.columns
  | addColumn _ column => [column]
  | _ => []

/-- A reason for which the statement of an operation cannot be written. -/
inductive Fault (operation : Operation) : Error → Prop
  | quoting {e : Error} (h : QuotingFault operation.draft e) : Fault operation e
  | type {c : Column} {e : Error} (h : c ∈ operation.columns) (hfault : c.TypeFault e) :
    Fault operation e
  | creation {t : Table} {e : Error} (h : operation = createTable t) (hfault : t.CreationFault e) :
    Fault operation e

/-- No part is missing that the statement of an operation needs. Split points cannot be set on a
table that exists. -/
def Complete : Operation → Prop
  | createTable table =>
    table.columns ≠ [] ∧ table.primaryKey ≠ []
      ∧ (∀ column ∈ table.primaryKey, column ∈ table.columnNames)
      ∧ ∀ i ∈ table.indexes, i.columns ≠ []
  | addIndex _ index => index.columns ≠ []
  | setTableSettings _ settings =>
    settings.written.isEmpty = false ∧ (settings.partitioning.getD {}).splitPoints = []
  | alterTopic _ settings => settings.isEmpty = false
  | changeConsumer _ (.setCodecs _ codecs) => codecs ≠ []
  | _ => True

end Operation

/-- Whether an error is about a part that is missing in an operation. -/
def Error.isIncomplete : Error → Bool
  | rejected (.createWithoutColumns _) => true
  | rejected (.createWithoutKey _) => true
  | rejected (.keyColumnMissing _) => true
  | rejected (.indexWithoutColumns _) => true
  | rejected (.noTableSettings _) => true
  | rejected (.noTopicSettings _) => true
  | rejected (.noCodecs _) => true
  | _ => false

/-! ## Plans -/

/-- The operations whose statements a plan for a table consists of. -/
def plannedOperations (options : PlanOptions) (declared : Table) :
    Option Table → Except Error (List Operation)
  | none => .ok [.createTable declared]
  | some observed => tableOperations options declared observed

/-- A reason for which there is no plan for a table: an observed column is not declared, or an
operation cannot be written. -/
inductive PlanFault (options : PlanOptions) (declared : Table) : Option Table → Error → Prop
  | dropped {observed : Table} {c : Column} (h : c ∈ observed.columns)
    (hdropped : c.name ∉ declared.columnNames) :
    PlanFault options declared (some observed)
      (.droppedColumns (droppedColumns declared.columns observed.columns))
  | operation {observed : Option Table} {operations : List Operation} {operation : Operation}
    {e : Error} (h : plannedOperations options declared observed = .ok operations)
    (hmem : operation ∈ operations) (hfault : operation.Fault e) :
    PlanFault options declared observed e

end SchemaPlan
