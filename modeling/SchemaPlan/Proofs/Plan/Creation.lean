import SchemaPlan.Proofs.Ddl.Settings
import SchemaPlan.Proofs.Plan.Stability
import SchemaPlan.Proofs.Plan.TypeEntries

/-!
# What a creation carries

`planTable_none_creates` : read back, the statement of a plan for a table that is not there says all
that is declared but the changefeeds. Planning again against the table that the statement creates
adds every changefeed, so there is nothing to do only if there are none (`planTable_none_watched`).
-/

namespace SchemaPlan

open Ddl

/-! ## Reading a creation -/

/-- What follows the body of a creation is read as the settings of the table. -/
theorem readSettings?_afterBody {t : Table}
    (hkeys : ∀ e ∈ t.attributes.entries, isAttributeKey e.1 = true) :
    readSettings? (pieces (afterBody t)) = some (settingValues t) :=
  readSettings?_withBlock (listable_withEntries hkeys) (mapM_readSetting? hkeys)

/-- A partitioning of which nothing is said is not there. -/
theorem created_of_partitioning (key : List Column) (partitioning : Option Partitioning) :
    (if ((partitioning.getD {}).created key).isEmpty then none
      else some ((partitioning.getD {}).created key)) =
      (partitioning.map (Partitioning.created key)).filter fun p => !p.isEmpty := by
  cases partitioning with
  | none => rfl
  | some p =>
    rw [Option.getD_some, Option.map_some, Option.filter_some]
    cases (p.created key).isEmpty <;> rfl

/-- A creation is read back as the table that it creates. -/
theorem ofStatement?_createTable {t : Table} {s : String}
    (h : (Operation.createTable t).statement = .ok s)
    (htypes : ∀ c ∈ t.columns, c.TypeIsEntry) : Table.ofStatement? s = some t.created := by
  have hwritable := writable_of_createTable h
  obtain ⟨points, hpoints⟩ := hwritable.splitPoints
  have hbody := listable_tableEntries htypes hwritable.types
  have hgroup := group?_bracketBlock (tableEntries_ne_nil t) hbody (pieces (afterBody t))
  rw [Table.ofStatement?, (regions?_statement h).1, pieces_createTable]
  simp only [Option.bind_eq_bind, Option.bind_some, afterWord?_append, takeQuoted?_region, hgroup,
    mapM_readPart? hwritable.key hwritable.indexes, readSettings?_afterBody hwritable.attributes,
    column?_parts, index?_parts, primaryKey?_parts, family?_parts, readExpiry?_settingValues,
    readPartitioning_settingValues hpoints, readReplicas_settingValues,
    readAttributes_settingValues, Option.pure_def, String.ofList_toList]
  rw [Table.created, List.flatten_singleton, created_of_partitioning]

/-! ## Planning again -/

@[simp] theorem Column.name_created (c : Column) : c.created.name = c.name := by
  unfold Column.created
  dsimp only
  split <;> rfl

/-- A table that was just created lacks no column. -/
theorem columnsToAdd_created (columns : List Column) :
    columnsToAdd columns (columns.map Column.created) = .ok [] := by
  have hnames : (columns.map Column.created).map Column.name = columns.map Column.name := by
    simp [Function.comp_def]
  have hself := columnsToAdd_self columns
  rw [columnsToAdd, droppedColumns] at hself ⊢
  rwa [hnames]

theorem changefeedDifference_nil (feeds : List Changefeed) :
    changefeedDifference feeds [] = ⟨feeds, []⟩ := by
  simp [changefeedDifference, Changefeed.isAmong, lastNamed?]

/-- The partitioning of a creation differs in nothing that can be changed. -/
theorem changedPartitioning_created (key : List Column) (p : Partitioning) :
    (changedPartitioning p
      (((some (p.created key)).filter fun p => !p.isEmpty).getD {})).isEmpty = true := by
  rw [Option.filter_some]
  cases hempty : (p.created key).isEmpty with
  | false => simp [changedPartitioning, Partitioning.created, Partitioning.isEmpty]
  | true =>
    simp only [Partitioning.isEmpty, Partitioning.created, Bool.and_eq_true,
      Option.isNone_iff_eq_none] at hempty
    obtain ⟨⟨⟨⟨⟨⟨-, hmin⟩, hmax⟩, hload⟩, hsize⟩, hthreshold⟩, -⟩ := hempty
    simp [changedPartitioning, Partitioning.isEmpty, hmin, hmax, hload, hsize, hthreshold, changed?]

/-- Read replicas that are declared are those of the creation. -/
theorem changed?_or {α : Type} [DecidableEq α] (declared other : Option α) :
    changed? declared (declared.or other) = none := by
  cases declared with
  | none => rfl
  | some a => simp [changed?]

theorem settingsDifference_created (t : Table) :
    settingsDifference t.settings t.created.settings = ⟨{}, false⟩ := by
  have hreplicas : t.created.replication.bind Replication.readReplicas =
      (t.replication.bind Replication.readReplicas).or (t.attributes.lookup replicasKey) := by
    rw [Table.created, Option.bind_map]
    cases (t.replication.bind Replication.readReplicas).or (t.attributes.lookup replicasKey) <;> rfl
  rw [settingsDifference, SettingsDifference.mk.injEq, TableSettings.mk.injEq]
  refine ⟨⟨changed?_self _, ?_, ?_⟩, ?_⟩
  · rw [Table.settings_partitioning, Table.settings_partitioning, Table.created]
    cases t.partitioning with
    | none => rfl
    | some p =>
      rw [Option.map_some, Option.map_some, Option.filter_some, changedPartitioning_created]
      rfl
  · rw [Table.settings_replication, Table.settings_replication, hreplicas, changed?_or,
      Option.map_none]
  · cases httl : t.ttl <;> simp [Table.created, httl]

/-- Against the table of its creation, a table lacks its changefeeds. -/
theorem tableOperations_created {t : Table} (hd : t.DistinctNames) (options : PlanOptions) :
    tableOperations options t t.created = .ok (t.changefeeds.map (.addChangefeed t.path)) := by
  have hindexes : indexDifference t.indexes t.created.indexes = ⟨[], []⟩ := by
    rw [Table.created, IndexDifference.mk.injEq]
    exact ⟨add_indexDifference_self_iff.2 (agreeing_of_nodup Index.sameAs_self hd.indexes),
      drop_indexDifference_self _⟩
  refine tableOperations_eq_ok_iff.2 ⟨[], columnsToAdd_created t.columns, ?_⟩
  have hchangefeeds : changefeedDifference t.changefeeds t.created.changefeeds =
      ⟨t.changefeeds, []⟩ := changefeedDifference_nil t.changefeeds
  rw [settingsDifference_created, hchangefeeds, hindexes]
  simp [indexOperations, changedIndexes, changefeedOperations, settingsOperations,
    TableSettings.isEmpty]

/-! ## Creations -/

/-- Tables that differ in nothing but their changefeeds are created by one plan. -/
theorem planTable_none_setChangefeeds (options : PlanOptions) (t : Table)
    (feeds : List Changefeed) :
    planTable options { t with changefeeds := feeds } none = planTable options t none :=
  rfl

/-- A plan for a table that is not there creates it with everything but its changefeeds, and is the
same whatever these are. What remains to be done is to add them, so there is nothing to do only if
there are none. -/
theorem planTable_none_creates {options : PlanOptions} {t : Table} {plan : Plan}
    (hd : t.DistinctNames) (htypes : ∀ c ∈ t.columns, c.TypeIsEntry)
    (h : planTable options t none = .ok plan) :
    ∃ s, plan = .create s ∧ Table.ofStatement? s = some t.created ∧
      tableOperations options t t.created = .ok (t.changefeeds.map (.addChangefeed t.path)) ∧
      (planTable options t (some t.created) = .ok .upToDate ↔ t.changefeeds = []) ∧
      ∀ feeds, planTable options { t with changefeeds := feeds } none = .ok (.create s) := by
  have hfeeds := planTable_none_setChangefeeds options t
  rw [h] at hfeeds
  simp only [planTable, bind_eq_ok_iff, pure_eq_ok_iff] at h
  obtain ⟨⟨⟩, hvalid, s, hs, rfl⟩ := h
  refine ⟨s, rfl, ofStatement?_createTable hs htypes, tableOperations_created hd options, ?_,
    hfeeds⟩
  rw [planTable_some_eq_upToDate_iff hvalid, tableOperations_created hd options, Except.ok.injEq,
    List.map_eq_nil_iff]

/-- A table with a member of every kind. -/
def archive : Table where
  path := "dir/archive"
  columns := [{ name := "id", type := "Utf8", notNull := true },
    { name := "price", type := "Decimal(22, 9)", family := some "cold" },
    { name := "seen", type := "Timestamp" }]
  primaryKey := ["id"]
  indexes := [{ name := "by_price", kind := .async, columns := ["price", "id"], cover := ["seen"] }]
  families := [⟨"cold", "hdd", "lz4"⟩]
  ttl := some ⟨"seen", "P30D"⟩
  partitioning := some { minPartitions := some 2, byLoad := some true, splitPoints := [["m"]] }
  replication := some ⟨some "PER_AZ:1"⟩
  attributes := .ofList [("owner", "billing")]
  changefeeds := [{ name := "updates" }]

/-- The archive is created without its changefeeds, which the next plan adds. -/
theorem planTable_none_creates_archive :
    ∃ s, planTable {} archive none = .ok (.create s) ∧
      Table.ofStatement? s = some { archive with changefeeds := [] } ∧
      tableOperations {} archive { archive with changefeeds := [] } =
        .ok [.addChangefeed "dir/archive" { name := "updates" }] := by
  obtain ⟨s, -, hread, hagain, -, hfeeds⟩ :=
    @planTable_none_creates {} archive _ ⟨by decide, by decide⟩ (by decide) rfl
  have hcreated : archive.created = { archive with changefeeds := [] } := rfl
  exact ⟨s, hfeeds archive.changefeeds, hcreated ▸ hread, hcreated ▸ hagain⟩

/-- A table with a changefeed. -/
def watched : Table where
  path := "dir/series"
  columns := [{ name := "id", type := "Uint64" }]
  primaryKey := ["id"]
  changefeeds := [{ name := "updates" }]

set_option maxRecDepth 4000 in
/-- A table with a changefeed and one without are accepted and have one plan, after which the
changefeed still has to be added. -/
theorem planTable_none_watched :
    watched.validate = .ok () ∧
    planTable {} watched none = planTable {} { watched with changefeeds := [] } none ∧
    planTable {} watched none =
      .ok (.create "CREATE TABLE `dir\\/series`(\n\t`id` Uint64,\n\tPRIMARY KEY (`id`)\n)\n") ∧
    planTable {} watched (some { watched with changefeeds := [] }) =
      .ok (.alter ["ALTER TABLE `dir\\/series` ADD CHANGEFEED `updates` " ++
        "WITH (MODE = \"UPDATES\", FORMAT = \"JSON\")"]) :=
  ⟨rfl, rfl, rfl, rfl⟩

end SchemaPlan
