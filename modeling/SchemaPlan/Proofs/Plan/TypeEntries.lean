import SchemaPlan.Proofs.Ddl.Listing
import SchemaPlan.Proofs.Plan.Containment

/-!
# Types and the entries of statements

The type of a column is written without quotes. `statement_entries` : the statement that adds a
column has one action, and the statement that creates a table lists one entry for each of its
columns, indexes and families and one for its key, exactly if the types of the columns can stand in
one entry. That a statement is written at all says less: a type may hold commas outside its brackets
(`statement_twoActions`).
-/

namespace SchemaPlan

open Ddl

/-! ## What written statements guarantee -/

/-- A type that can be written is not blank. -/
theorem type_ne_nil_of_columnDefinition {c : Column} {p : Phrase}
    (h : columnDefinition c = .ok p) : Text.dropEnds Text.isBlank c.type.toList ≠ [] := by
  simp only [columnDefinition, bind_eq_ok_iff, pure_eq_ok_iff] at h
  obtain ⟨-, -, type, htype, -⟩ := h
  simp only [columnType] at htype
  split at htype
  · rename_i hchars
    intro hnil
    simp [hnil] at hchars
  · cases htype

theorem type_ne_nil_of_addColumn {table : String} {c : Column} {s : String}
    (h : (Operation.addColumn table c).statement = .ok s) :
    Text.dropEnds Text.isBlank c.type.toList ≠ [] := by
  obtain ⟨p, hp, -⟩ := map_eq_ok_iff.1 h
  simp only [Operation.phrase, addColumn, bind_eq_ok_iff, pure_eq_ok_iff] at hp
  obtain ⟨-, -, column, hcolumn, -⟩ := hp
  exact type_ne_nil_of_columnDefinition hcolumn

/-- What can be said of a table whose creation can be written. -/
structure Writable (t : Table) : Prop where
  types : ∀ c ∈ t.columns, Text.dropEnds Text.isBlank c.type.toList ≠ []
  key : t.primaryKey ≠ []
  indexes : ∀ i ∈ t.indexes, i.columns ≠ []
  splitPoints : ∃ ps, splitPointsEntries (t.primaryKey.filterMap t.column?)
    (t.partitioning.getD {}).splitPoints = .ok ps
  attributes : ∀ e ∈ t.attributes.entries, isAttributeKey e.1 = true

/-- A table that can be created has types and keys that can be written. -/
theorem writable_of_createTable {t : Table} {s : String}
    (h : (Operation.createTable t).statement = .ok s) : Writable t := by
  obtain ⟨p, hp, -⟩ := map_eq_ok_iff.1 h
  simp only [Operation.phrase, createTable, refuse_eq_ok_iff, bind_eq_ok_iff, pure_eq_ok_iff] at hp
  obtain ⟨-, hkey, columns, hcolumns, indexes, hindexes, -, -, -, -, -, -, keyColumns, hkeyColumns,
    settings, hsettings, attributes, hattributes, -⟩ := hp
  refine ⟨fun c hc => ?_, by simpa using hkey, fun i hi => ?_, ?_, fun e he => ?_⟩
  · obtain ⟨column, -, hcolumn⟩ := exists_mem_of_mapM hcolumns hc
    exact type_ne_nil_of_columnDefinition hcolumn
  · obtain ⟨index, -, hindex⟩ := exists_mem_of_mapM hindexes hi
    exact columns_ne_nil_of_indexDefinition hindex
  · rw [eq_of_keyColumns hkeyColumns] at hsettings
    simp only [settingsEntries, partitioningEntries, bind_eq_ok_iff] at hsettings
    obtain ⟨-, -, -, ⟨points, hpoints, -⟩, -⟩ := hsettings
    exact ⟨points, hpoints⟩
  · obtain ⟨entry, -, hentry⟩ := exists_mem_of_mapM hattributes he
    simp only [attributeEntry, refuse_eq_ok_iff] at hentry
    simpa using hentry.1

/-! ## Adding a column -/

/-- What a statement that adds a column does to the table that it names. -/
def columnAction (c : Column) : Draft :=
  plain "ADD COLUMN " ++ Draft.column c

/-- The addition of a column is one action exactly if its type is one entry. -/
theorem isEntry_columnAction_iff {c : Column} :
    IsEntry (pieces (columnAction c)) ↔ c.TypeIsEntry := by
  have hfront : IsEntry (pieces (plain "ADD COLUMN ")) := by decide
  have hiff := @isEntry_append_append_iff (pieces (Draft.column c)) _ _ hfront isEntry_nil
  rwa [List.append_nil, isEntry_column_iff, ← pieces_append] at hiff

theorem pieces_addColumn (table : String) (c : Column) :
    pieces (Operation.addColumn table c).draft = pieces (plain "ALTER TABLE ")
      ++ (.region .name table.toList :: ([.outside ' '] ++ pieces (columnAction c))) := by
  simp [Operation.draft, Draft.alterTable, columnAction]

/-- A statement that adds a column is one entry exactly if the type of the column is. -/
theorem isEntry_addColumn_iff {table : String} {c : Column} :
    IsEntry (pieces (Operation.addColumn table c).draft) ↔ c.TypeIsEntry := by
  have hfront : IsEntry (pieces (plain "ALTER TABLE ") ++ [.region .name table.toList]
      ++ [.outside ' ']) :=
    (IsEntry.append (by decide) (isEntry_name table)).append (by decide)
  have hiff := @isEntry_append_append_iff (pieces (columnAction c)) _ _ hfront isEntry_nil
  rw [isEntry_columnAction_iff] at hiff
  rw [pieces_addColumn, ← hiff]
  simp

/-- The actions of the statement are the entries after the name of the table. -/
theorem alterActions?_addColumn (table : String) (c : Column) :
    alterActions? (pieces (Operation.addColumn table c).draft) =
      entries? ([.outside ' '] ++ pieces (columnAction c)) := by
  rw [pieces_addColumn, alterActions?, afterWord?_append]
  simp only [Option.bind_eq_bind, Option.bind_some, takeQuoted?_region]

/-- The addition of the column is all that the statement does, exactly if the type of the column
is one entry. -/
theorem alterActions?_addColumn_eq_iff {table : String} {c : Column}
    (htype : Text.dropEnds Text.isBlank c.type.toList ≠ []) :
    alterActions? (pieces (Operation.addColumn table c).draft) = some [pieces (columnAction c)] ↔
      c.TypeIsEntry := by
  have hblank : ∀ p ∈ [Piece.outside ' '], p.isBlank = true := by decide
  have hends : endsSolid (pieces (columnAction c)) = true := by
    rw [columnAction, pieces_append]
    exact endsSolid_append _ (endsSolid_column htype)
  have htrim : trimPieces ([.outside ' '] ++ pieces (columnAction c)) =
      pieces (columnAction c) := by
    rw [trimPieces_blank_append hblank]
    exact trimPieces_eq_self rfl hends
  have hiff := @isEntry_append_append_iff (pieces (columnAction c)) _ _
    (isEntry_of_isBlank hblank) isEntry_nil
  rw [List.append_nil, isEntry_columnAction_iff] at hiff
  rw [alterActions?_addColumn, ← hiff, ← entries?_eq_singleton_iff, htrim]

/-! ## Creating a table -/

/-- A creation has an entry for every column, index and family, and one for the key. -/
theorem length_tableEntries (t : Table) : (Draft.tableEntries t).length =
    t.columns.length + t.indexes.length + 1 + t.families.length := by
  simp only [Draft.tableEntries, List.length_append, List.length_map, List.length_singleton]

theorem tableEntries_ne_nil (t : Table) : Draft.tableEntries t ≠ [] := by
  rw [← List.length_pos_iff, length_tableEntries]
  omega

/-- Every entry of a creation can stand in a list if the types are entries. -/
theorem listable_tableEntries {t : Table} (hentries : ∀ c ∈ t.columns, c.TypeIsEntry)
    (htypes : ∀ c ∈ t.columns, Text.dropEnds Text.isBlank c.type.toList ≠ []) :
    ∀ d ∈ Draft.tableEntries t, Listable d := by
  intro d hd
  simp only [Draft.tableEntries, List.mem_append] at hd
  rcases hd with ((hd | hd) | hd) | hd
  · obtain ⟨c, hc, rfl⟩ := List.mem_map.1 hd
    exact listable_column (hentries c hc) (htypes c hc)
  · obtain ⟨i, -, rfl⟩ := List.mem_map.1 hd
    exact listable_index i
  · rw [List.mem_singleton.1 hd]
    exact listable_key t.primaryKey
  · obtain ⟨f, -, rfl⟩ := List.mem_map.1 hd
    exact listable_family f

/-- Every setting and attribute can stand in a list. -/
theorem listable_withEntries {t : Table}
    (hkeys : ∀ e ∈ t.attributes.entries, isAttributeKey e.1 = true) :
    ∀ d ∈ Draft.withEntries t, Listable d := by
  intro d hd
  rcases List.mem_append.1 hd with hd | hd
  · exact listable_settings _ _ d hd
  · obtain ⟨e, he, rfl⟩ := List.mem_map.1 hd
    exact listable_attribute (hkeys e he) e.2

/-- What follows the body of a statement that creates a table. -/
def afterBody (t : Table) : Draft :=
  withBlock (Draft.withEntries t) ++ plain "\n"

/-- A creation is the name of the table, the list of its entries and its settings. -/
theorem pieces_createTable (t : Table) : pieces (Operation.createTable t).draft =
    pieces (plain "CREATE TABLE ") ++ (.region .name t.path.toList ::
      (pieces (bracketBlock (Draft.tableEntries t)) ++ pieces (afterBody t))) := by
  simp [Operation.draft, Draft.createTable, afterBody]

/-- A creation is one entry if its clauses can stand in lists. -/
theorem isEntry_createTable {t : Table} (hbody : ∀ d ∈ Draft.tableEntries t, Listable d)
    (hwith : ∀ d ∈ Draft.withEntries t, Listable d) :
    IsEntry (pieces (Operation.createTable t).draft) := by
  have hafter : IsEntry (pieces (afterBody t)) := by
    rw [afterBody, pieces_append]
    exact (isEntry_withBlock fun d hd => (hwith d hd).isEntry).append (by decide)
  rw [pieces_createTable]
  refine IsEntry.append (by decide) ?_
  exact (isEntry_name t.path).append
    ((isEntry_bracketBlock fun d hd => (hbody d hd).isEntry).append hafter)

/-- What the body of a statement that creates a table is read from. -/
theorem createBody?_draft (t : Table) : createBody? (pieces (Operation.createTable t).draft) =
    group? (pieces (bracketBlock (Draft.tableEntries t)) ++ pieces (afterBody t)) := by
  rw [pieces_createTable, createBody?, afterWord?_append]
  simp only [Option.bind_eq_bind, Option.bind_some, takeQuoted?_region]

/-- The body of a creation is split into its entries. -/
theorem createBody?_createTable {t : Table} (hbody : ∀ d ∈ Draft.tableEntries t, Listable d) :
    createBody? (pieces (Operation.createTable t).draft) =
      some ((Draft.tableEntries t).map pieces, pieces (afterBody t)) := by
  rw [createBody?_draft]
  exact group?_bracketBlock (tableEntries_ne_nil t) hbody _

/-- The entries of the body are all those of the table and no others, exactly if the types of the
columns are entries. -/
theorem createBody?_createTable_eq_iff {t : Table} {s : String}
    (h : (Operation.createTable t).statement = .ok s) :
    (IsEntry (pieces (Operation.createTable t).draft) ∧
      ∃ rest, createBody? (pieces (Operation.createTable t).draft) =
        some ((Draft.tableEntries t).map pieces, rest)) ↔ ∀ c ∈ t.columns, c.TypeIsEntry := by
  have hwritable := writable_of_createTable h
  constructor
  · rintro ⟨-, rest, hread⟩ c hc
    rw [createBody?_draft] at hread
    rw [← isEntry_column_iff]
    refine isEntry_of_group? hread _ (List.mem_map_of_mem ?_)
    simp only [Draft.tableEntries, List.mem_append]
    exact .inl (.inl (.inl (List.mem_map_of_mem hc)))
  · intro hentries
    have hbody := listable_tableEntries hentries hwritable.types
    have hwith := listable_withEntries hwritable.attributes
    exact ⟨isEntry_createTable hbody hwith, _, createBody?_createTable hbody⟩

/-! ## Types and entries -/

/-- A statement that adds a column is one entry and has one action, exactly if the type of the
column is one entry; and a statement that creates a table lists its columns, indexes, key and
families and nothing else, exactly if the types of its columns are entries. -/
theorem statement_entries (table : String) (c : Column) (t : Table) :
    (∀ s, (Operation.addColumn table c).statement = .ok s →
      ∃ ps, regions? s = some ps ∧ (IsEntry ps ↔ c.TypeIsEntry) ∧
        (alterActions? ps = some [pieces (columnAction c)] ↔ c.TypeIsEntry)) ∧
    ∀ s, (Operation.createTable t).statement = .ok s →
      ∃ ps, regions? s = some ps ∧
        ((IsEntry ps ∧ ∃ rest, createBody? ps = some ((Draft.tableEntries t).map pieces, rest)) ↔
          ∀ c ∈ t.columns, c.TypeIsEntry) ∧
        ((Draft.tableEntries t).map pieces).length =
          t.columns.length + t.indexes.length + 1 + t.families.length := by
  refine ⟨fun s h => ?_, fun s h => ?_⟩
  · exact ⟨_, (regions?_statement h).1, isEntry_addColumn_iff,
      alterActions?_addColumn_eq_iff (type_ne_nil_of_addColumn h)⟩
  · refine ⟨_, (regions?_statement h).1, createBody?_createTable_eq_iff h, ?_⟩
    rw [List.length_map, length_tableEntries]

/-- A column whose type has a comma inside brackets. -/
def priceColumn : Column where
  name := "price"
  type := "Decimal(22, 9)"

/-- A table with a column, an index and a family of each shape that its body can have. -/
def prices : Table where
  path := "dir/prices"
  columns := [{ name := "id", type := "Uint64", notNull := true },
    { name := "price", type := "Decimal(22, 9)", family := some "cold" }]
  primaryKey := ["id"]
  indexes := [{ name := "by_price", columns := ["price", "id"] }]
  families := [⟨"cold", "hdd", "lz4"⟩]

/-- A type with a comma inside brackets is one entry. -/
theorem statement_entries_prices :
    (∃ s ps, (Operation.addColumn "dir/series" priceColumn).statement = .ok s ∧
      regions? s = some ps ∧ IsEntry ps ∧
      alterActions? ps = some [pieces (columnAction priceColumn)]) ∧
    ∃ s ps, (Operation.createTable prices).statement = .ok s ∧ regions? s = some ps ∧
      IsEntry ps ∧ ∃ rest, createBody? ps = some ((Draft.tableEntries prices).map pieces, rest) ∧
        ((Draft.tableEntries prices).map pieces).length = 5 := by
  obtain ⟨hadd, hcreate⟩ := statement_entries "dir/series" priceColumn prices
  constructor
  · obtain ⟨ps, hread, hentry, haction⟩ := hadd _ rfl
    exact ⟨_, ps, rfl, hread, hentry.2 (by decide), haction.2 (by decide)⟩
  · obtain ⟨ps, hread, hbody, hlength⟩ := hcreate _ rfl
    obtain ⟨hentry, rest, hentries⟩ := hbody.2 (by decide)
    exact ⟨_, ps, rfl, hread, hentry, rest, hentries, hlength⟩

/-- A type that goes on with another action after a comma. -/
def trailedColumn : Column where
  name := "title"
  type := "Utf8, DROP COLUMN id"

/-- A type may bring an action of its own, which drops another column. -/
theorem statement_twoActions :
    (Operation.addColumn "dir/series" trailedColumn).statement =
      .ok "ALTER TABLE `dir\\/series` ADD COLUMN `title` Utf8, DROP COLUMN id" ∧
    (regions? "ALTER TABLE `dir\\/series` ADD COLUMN `title` Utf8, DROP COLUMN id").bind
        alterActions? =
      some [pieces (columnAction { name := "title", type := "Utf8" }),
        pieces (plain "DROP COLUMN id")] :=
  ⟨rfl, rfl⟩

end SchemaPlan
