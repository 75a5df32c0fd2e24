import SchemaPlan.Table.Validation

/-!
# What is wrong with a declaration, and where

`Table.WellFormed` says that a declaration is consistent. `Table.Violates` says what is wrong at a
place of a declaration that is not; the places are numbered as a reader comes to them
(`Site.number`). `Table.Reports` holds of the list of everything that is wrong, in this order.
-/

namespace SchemaPlan

/-- A place of the declaration of a table; entries of lists are counted from zero. -/
inductive Site where
  | path
  | columns
  | primaryKey
  | columnName (column : Nat)
  | columnFamily (column : Nat)
  | keyColumn (entry : Nat)
  | indexColumns (index : Nat)
  /-- An entry of the key columns of an index followed by the columns that it covers. -/
  | indexColumn (index entry : Nat)
  | ttl
  deriving Repr, DecidableEq

namespace Site

/-- The part of a declaration that a place belongs to; places with one thing to check each are
parts of their own. -/
def part : Site → Nat
  | path => 0
  | columns => 1
  | primaryKey => 2
  | columnName _ => 3
  | columnFamily _ => 4
  | keyColumn _ => 5
  | indexColumns _ => 6
  | indexColumn _ _ => 6
  | ttl => 7

/-- Where a place stands in its part. -/
def position : Site → List Nat
  | columnName column => [column]
  | columnFamily column => [column]
  | keyColumn entry => [entry]
  | indexColumns index => [index]
  | indexColumn index entry => [index, entry]
  | _ => []

/-- The number of a place, as of a paragraph: a number comes before all that start with it. -/
def number (site : Site) : List Nat :=
  site.part :: site.position

end Site

namespace Table

/-- Every part that a table must have is there, columns are declared once, and what is referred to
is declared. -/
structure WellFormed (t : Table) : Prop where
  path : t.path ≠ ""
  columns : t.columns ≠ []
  primaryKey : t.primaryKey ≠ []
  columnNames : t.columnNames.Nodup
  families : ∀ c ∈ t.columns, ∀ family, c.family = some family →
    family ∈ t.families.map Family.name
  keyColumns : ∀ column ∈ t.primaryKey, column ∈ t.columnNames
  indexes : ∀ i ∈ t.indexes, i.columns ≠ []
  indexColumns : ∀ i ∈ t.indexes, ∀ column ∈ i.columns ++ i.cover, column ∈ t.columnNames
  ttl : ∀ ttl, t.ttl = some ttl → ttl.column ∈ t.columnNames

/-- What is wrong at a place of a declaration. -/
inductive Violates (t : Table) : Site → TableProblem → Prop
  | emptyPath (h : t.path = "") : Violates t .path .emptyPath
  | noColumns (h : t.columns = []) : Violates t .columns .noColumns
  | noPrimaryKey (h : t.primaryKey = []) : Violates t .primaryKey .noPrimaryKey
  /-- A column before this one has its name. -/
  | duplicateColumn {n : Nat} {name : String} (hname : t.columnNames[n]? = some name)
      (h : name ∈ t.columnNames.take n) : Violates t (.columnName n) (.duplicateColumn name)
  | undeclaredFamily {n : Nat} {c : Column} {family : String} (hc : t.columns[n]? = some c)
      (hfamily : c.family = some family) (h : family ∉ t.families.map Family.name) :
      Violates t (.columnFamily n) (.undeclaredFamily c.name family)
  | undeclaredKeyColumn {n : Nat} {column : String} (hcolumn : t.primaryKey[n]? = some column)
      (h : column ∉ t.columnNames) : Violates t (.keyColumn n) (.undeclaredKeyColumn column)
  | indexWithoutColumns {n : Nat} {i : Index} (hi : t.indexes[n]? = some i) (h : i.columns = []) :
      Violates t (.indexColumns n) (.indexWithoutColumns i.name)
  | undeclaredIndexColumn {n k : Nat} {i : Index} {column : String}
      (hi : t.indexes[n]? = some i) (hcolumn : (i.columns ++ i.cover)[k]? = some column)
      (h : column ∉ t.columnNames) :
      Violates t (.indexColumn n k) (.undeclaredIndexColumn i.name column)
  | undeclaredTtlColumn {ttl : Ttl} (httl : t.ttl = some ttl) (h : ttl.column ∉ t.columnNames) :
      Violates t .ttl (.undeclaredTtlColumn ttl.column)

/-- The entries are everything that is wrong with the declaration, each once, in the order of the
places. -/
structure Reports (t : Table) (entries : List (Site × TableProblem)) : Prop where
  ordered : entries.Pairwise fun a b => a.1.number < b.1.number
  complete : ∀ site problem, (site, problem) ∈ entries ↔ t.Violates site problem

end Table

end SchemaPlan
