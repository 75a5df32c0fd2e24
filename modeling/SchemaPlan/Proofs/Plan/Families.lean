import SchemaPlan.Proofs.Plan.Preservation
import SchemaPlan.Proofs.Table.Validation

/-!
# The families of added columns

A declaration is accepted if its columns are in families that it declares. No operation that a plan
for an existing table may contain adds a family, so a plan adds columns to families that are there
exactly if these are observed (`familyThere_tableOperations`). A column in a family that is declared
but not observed is added all the same (`tableOperations_newFamily`).
-/

namespace SchemaPlan

variable {options : PlanOptions} {declared observed : Table} {operations : List Operation}

/-- The columns that a plan adds are those that are declared and not observed. -/
theorem addColumn_mem_iff (h : tableOperations options declared observed = .ok operations)
    {path : String} {c : Column} : .addColumn path c ∈ operations ↔
      path = declared.path ∧ c ∈ declared.columns ∧ c.name ∉ observed.columnNames := by
  constructor
  · intro hmem
    cases planned_of_mem_tableOperations h hmem with
    | addColumn hc hnew => exact ⟨rfl, hc, hnew⟩
  · rintro ⟨rfl, hc, hnew⟩
    obtain ⟨columns, hcolumns, rfl⟩ := tableOperations_eq_ok_iff.1 h
    obtain ⟨-, rfl⟩ := columnsToAdd_eq_ok_iff.1 hcolumns
    simp only [List.append_assoc]
    refine List.mem_append.2 (.inl (List.mem_map_of_mem (List.mem_filter.2 ⟨hc, ?_⟩)))
    simpa [Table.columnNames] using hnew

/-- However far a plan has been carried out, the table has the families that were observed. -/
theorem families_afterAll (h : tableOperations options declared observed = .ok operations)
    {before after : List Operation} (hsplit : operations = before ++ after) :
    (observed.afterAll before).families = observed.families := by
  have hplanned : ∀ operation ∈ before, Planned options declared observed operation :=
    fun operation hmem => planned_of_mem_tableOperations h (by
      rw [hsplit]
      exact List.mem_append_left after hmem)
  exact (preserves_afterAll hplanned observed).families

/-- However far a plan for an accepted declaration has been carried out, the table has the families
that were observed : no operation declares or removes one. The plan adds columns to families of the
declaration; when a column is added, its family is there exactly if it was observed. So all columns
are added to families that are there, exactly if every declared column that is missing is in an
observed family or in none. -/
theorem familyThere_tableOperations (hvalid : declared.validate = .ok ())
    (h : tableOperations options declared observed = .ok operations) :
    (∀ before after, operations = before ++ after →
      (observed.afterAll before).families = observed.families) ∧
    (∀ before path c after, operations = before ++ .addColumn path c :: after →
      ∀ family, c.family = some family → family ∈ declared.families.map Family.name ∧
        (family ∈ (observed.afterAll before).families.map Family.name ↔
          family ∈ observed.families.map Family.name)) ∧
    ((∀ before operation after, operations = before ++ operation :: after →
        operation.FamilyThere (observed.afterAll before)) ↔
      ∀ c ∈ declared.columns, c.name ∉ observed.columnNames →
        ∀ family, c.family = some family → family ∈ observed.families.map Family.name) := by
  have hadded : ∀ before path c after, operations = before ++ .addColumn path c :: after →
      c ∈ declared.columns ∧ c.name ∉ observed.columnNames := by
    rintro before path c after rfl
    exact ((addColumn_mem_iff h).1 (List.mem_append_right before List.mem_cons_self)).2
  refine ⟨fun before after hsplit => families_afterAll h hsplit,
    fun before path c after hsplit family hfamily => ⟨?_, ?_⟩, fun hthere c hc hnew => ?_,
    fun hobserved before operation after hsplit => ?_⟩
  · exact Table.mem_families_of_column hvalid (hadded _ _ _ _ hsplit).1 hfamily
  · rw [families_afterAll h hsplit]
  · obtain ⟨before, after, hsplit⟩ := List.append_of_mem ((addColumn_mem_iff h).2 ⟨rfl, hc, hnew⟩)
    have hcolumn := hthere before _ after hsplit
    rwa [Operation.FamilyThere, families_afterAll h hsplit] at hcolumn
  · cases operation with
    | addColumn path c =>
      obtain ⟨hc, hnew⟩ := hadded _ _ _ _ hsplit
      rw [Operation.FamilyThere, families_afterAll h hsplit]
      exact hobserved c hc hnew
    | _ => trivial

/-- A table with a column in a family. -/
def chilled : Table where
  path := "dir/series"
  columns := [{ name := "id", type := "Uint64" },
    { name := "title", type := "Utf8", family := some "cold" }]
  primaryKey := ["id"]
  families := [⟨"cold", "rot", "lz4"⟩]

/-- The table without the column, but with a family of the name. -/
def chilledSoon : Table :=
  { chilled with
    columns := [{ name := "id", type := "Uint64" }]
    families := [⟨"cold", "hdd", "off"⟩] }

/-- A column is added to a family that is already there, and no other operation follows. -/
theorem familyThere_tableOperations_chilled :
    chilled.validate = .ok () ∧
    tableOperations {} chilled chilledSoon =
      .ok [.addColumn "dir/series" { name := "title", type := "Utf8", family := some "cold" }] ∧
    (chilledSoon.afterAll [.addColumn "dir/series"
      { name := "title", type := "Utf8", family := some "cold" }]).families =
        chilledSoon.families ∧
    "cold" ∈ chilled.families.map Family.name ∧
    (Operation.addColumn "dir/series"
      { name := "title", type := "Utf8", family := some "cold" }).FamilyThere chilledSoon := by
  have hvalid : chilled.validate = .ok () := rfl
  have hoperations : tableOperations {} chilled chilledSoon =
      .ok [.addColumn "dir/series" { name := "title", type := "Utf8", family := some "cold" }] :=
    rfl
  obtain ⟨hfamilies, hadded, hthere⟩ := familyThere_tableOperations hvalid hoperations
  refine ⟨hvalid, hoperations, hfamilies _ [] (List.append_nil _).symm,
    (hadded [] _ _ [] rfl "cold" rfl).1, hthere.2 ?_ [] _ [] rfl⟩
  simp [chilled, chilledSoon, Table.columnNames]

/-- The table before it had families. -/
def unchilled : Table :=
  { chilled with columns := [{ name := "id", type := "Uint64" }], families := [] }

set_option maxRecDepth 4000 in
/-- The column is added to a family that is neither observed nor declared by an operation. -/
theorem tableOperations_newFamily :
    chilled.validate = .ok () ∧
    tableOperations {} chilled unchilled =
      .ok [.addColumn "dir/series" { name := "title", type := "Utf8", family := some "cold" }] ∧
    planTable {} chilled (some unchilled) =
      .ok (.alter ["ALTER TABLE `dir\\/series` ADD COLUMN `title` Utf8 FAMILY `cold`"]) ∧
    "cold" ∉ unchilled.families.map Family.name ∧
    ¬(Operation.addColumn "dir/series"
      { name := "title", type := "Utf8", family := some "cold" }).FamilyThere
        (unchilled.afterAll []) :=
  ⟨rfl, rfl, rfl, by decide, fun h => absurd (h "cold" rfl) (by decide)⟩

end SchemaPlan
