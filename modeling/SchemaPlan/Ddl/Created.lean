import SchemaPlan.Ddl.Literal
import SchemaPlan.Ddl.Reader

/-!
# Tables as they are created

`Table.created` is the table that its creation makes, as far as the statement says it: everything
that the table declares but its changefeeds. Types stand without the blanks around them, values of
split points as literals, and a group of settings without any setting is not there.
-/

namespace SchemaPlan

open Ddl

/-- The column of a definition. Words at the end of a type that say that the column is never null
are no part of the type. -/
def Column.created (c : Column) : Column :=
  let type := Text.dropEnds Text.isBlank c.type.toList
  match c.family, c.notNull, " NOT NULL".toList.isSuffixOf? type with
  | none, false, some type => { c with type := .ofList type, notNull := true }
  | _, _, _ => { c with type := .ofList type }

/-- A text as it is written as a value of the type of a column. -/
def Column.writtenLiteral (c : Column) (literal : String) : String :=
  match literalTypes.lookup c.baseType with
  | some (.integer range) =>
    ((range.read? (Text.dropEnds Text.isBlank literal.toList)).map Decimal.ofInt).getD literal
  | some .bool => ((readBool? literal.toList).map writeBool).getD literal
  | _ => literal

/-- The partitioning with the values of its split points as they are written for a key. -/
def Partitioning.created (key : List Column) (p : Partitioning) : Partitioning :=
  { p with
    splitPoints := p.splitPoints.map fun point =>
      (key.zip point).map fun e => e.1.writtenLiteral e.2 }

/-- The attributes but the one under a key. -/
def Attributes.without (a : Attributes) (key : String) : Attributes :=
  ⟨a.entries.filter fun e => e.1 ≠ key, a.sorted.filter _⟩

/-- The table that the creation of a table makes. Its read replicas are those of the attribute
with their key if the table has none of its own. -/
def Table.created (t : Table) : Table where
  path := t.path
  columns := t.columns.map Column.created
  primaryKey := t.primaryKey
  indexes := t.indexes
  families := t.families
  ttl := t.ttl
  partitioning :=
    (t.partitioning.map (Partitioning.created (t.primaryKey.filterMap t.column?))).filter
      fun p => !p.isEmpty
  replication :=
    ((t.replication.bind Replication.readReplicas).or (t.attributes.lookup replicasKey)).map
      fun s => ⟨some s⟩
  attributes := t.attributes.without replicasKey
  changefeeds := []

end SchemaPlan
