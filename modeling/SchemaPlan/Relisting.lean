import Mathlib.Data.List.Forall2
import SchemaPlan.Operation
import SchemaPlan.Topic.Basic

/-!
# Listing order

A table may be observed with its columns, indexes and changefeeds in any order, and a topic with its
consumers in any order; the covered columns of an index and the codecs of a topic are sets that are
listed in some way. `Table.Relisted` and `Topic.Relisted` say that two descriptions differ in
nothing else. `SameButForDrops` compares two plans for one declaration where only the drops of what
is not declared follow the order in which it is observed.
-/

namespace SchemaPlan

/-! ## Descriptions -/

/-- The indexes are the same but for the order and the repetitions of covered columns. -/
structure Index.Relisted (a b : Index) : Prop where
  name : a.name = b.name
  kind : a.kind = b.kind
  columns : a.columns = b.columns
  cover : ∀ column, column ∈ a.cover ↔ column ∈ b.cover

/-- The tables are the same but for the order of columns, indexes and changefeeds, and for how the
covered columns of an index are listed. -/
structure Table.Relisted (s t : Table) : Prop where
  path : s.path = t.path
  columns : s.columns.Perm t.columns
  primaryKey : s.primaryKey = t.primaryKey
  indexes : ∃ indexes, s.indexes.Perm indexes ∧ List.Forall₂ Index.Relisted indexes t.indexes
  families : s.families = t.families
  settings : s.settings = t.settings
  attributes : s.attributes = t.attributes
  changefeeds : s.changefeeds.Perm t.changefeeds

/-- The topics are the same but for the order of consumers, and for how the codecs of the topic are
listed. -/
structure Topic.Relisted (s t : Topic) : Prop where
  path : s.path = t.path
  partitions : s.partitions = t.partitions
  retention : s.retention = t.retention
  codecs : ∀ codec, codec ∈ s.codecs ↔ codec ∈ t.codecs
  consumers : s.consumers.Perm t.consumers

/-! ## Plans -/

/-- Errors about the same columns that are not declared any more, in any order. -/
inductive SameDroppedColumns : Error → Error → Prop
  | intro {columns columns' : List String} (h : columns.Perm columns') :
    SameDroppedColumns (.droppedColumns columns) (.droppedColumns columns')

/-- The operations are the same, one by one, but that the drops of indexes that are not declared and
the drops of changefeeds may each stand in another order. -/
inductive SameButForDrops (declared : Table) : List Operation → List Operation → Prop
  | intro (columns : List Column) (changed : List String) (indexes : List Index)
    (feeds : List Changefeed) (settings : List Operation)
    {drops drops' droppedFeeds droppedFeeds' : List String}
    (hdrops : drops.Perm drops')
    (hundeclared : ∀ name ∈ drops, name ∉ declared.indexes.map Index.name)
    (hfeeds : droppedFeeds.Perm droppedFeeds') :
    SameButForDrops declared
      (columns.map (.addColumn declared.path) ++ drops.map (.dropIndex declared.path)
        ++ changed.map (.dropIndex declared.path) ++ indexes.map (.addIndex declared.path)
        ++ droppedFeeds.map (.dropChangefeed declared.path)
        ++ feeds.map (.addChangefeed declared.path) ++ settings)
      (columns.map (.addColumn declared.path) ++ drops'.map (.dropIndex declared.path)
        ++ changed.map (.dropIndex declared.path) ++ indexes.map (.addIndex declared.path)
        ++ droppedFeeds'.map (.dropChangefeed declared.path)
        ++ feeds.map (.addChangefeed declared.path) ++ settings)

end SchemaPlan
