import SchemaPlan.Error
import SchemaPlan.Table.Basic

/-!
# Problems of declared tables

`Table.problems` lists every problem of a declaration, one for each place where it shows: the
empty parts, the repeated columns, then the references to families and columns that are not
declared. `Table.validate` refuses a table with problems.
-/

namespace SchemaPlan.Table

/-- The problem, if the condition holds. -/
def problemIf (condition : Bool) (problem : TableProblem) : List TableProblem :=
  if condition then [problem] else []

/-- The elements of `names` that are not in `declared`, in order. -/
def undeclared (declared names : List String) : List String :=
  names.filter (· ∉ declared)

/-- The path, the columns or the primary key are missing. -/
def emptyParts (t : Table) : List TableProblem :=
  problemIf t.path.isEmpty .emptyPath ++ problemIf t.columns.isEmpty .noColumns
    ++ problemIf t.primaryKey.isEmpty .noPrimaryKey

/-- Columns in families that are not declared. -/
def familyProblems (t : Table) : List TableProblem :=
  t.columns.flatMap fun c =>
    (undeclared (t.families.map Family.name) c.family.toList).map (.undeclaredFamily c.name)

/-- An index without key columns, or with columns that are not declared. -/
def indexProblems (t : Table) (i : Index) : List TableProblem :=
  problemIf i.columns.isEmpty (.indexWithoutColumns i.name)
    ++ (undeclared t.columnNames (i.columns ++ i.cover)).map (.undeclaredIndexColumn i.name)

/-- A column of the expiry of rows that is not declared. -/
def ttlProblems (t : Table) : List TableProblem :=
  (undeclared t.columnNames (t.ttl.toList.map Ttl.column)).map .undeclaredTtlColumn

/-- Every problem of a declaration. -/
def problems (t : Table) : List TableProblem :=
  t.emptyParts
    ++ (repeats t.columnNames).map .duplicateColumn
    ++ t.familyProblems
    ++ (undeclared t.columnNames t.primaryKey).map .undeclaredKeyColumn
    ++ t.indexes.flatMap t.indexProblems
    ++ t.ttlProblems

/-- Refuses a declaration with problems. -/
def validate (t : Table) : Except Error Unit :=
  Error.ofProblems t.path t.problems

end SchemaPlan.Table
