import SchemaPlan.Plan
import SchemaPlan.Proofs.Operation.Run
import SchemaPlan.Proofs.Table.Difference

/-!
# The run of a plan for a table

`tableOperations` is four blocks : columns, indexes, changefeeds, settings
(`tableOperations_eq_ok_iff`). Each block works on its own part of the table and leaves the others
alone, so the state after the run is read off block by block : `afterAll_indexOperations`,
`afterAll_changefeedOperations`, `afterAll_settingsOperations`, and all together
`afterAll_tableOperations`.
-/

namespace SchemaPlan

/-- No two indexes of a table have one name, and no two changefeeds. -/
structure Table.DistinctNames (t : Table) : Prop where
  indexes : (t.indexes.map Index.name).Nodup
  changefeeds : (t.changefeeds.map Changefeed.name).Nodup

variable {options : PlanOptions} {declared observed : Table} {operations : List Operation}

/-- A plan has the operations of its parts in their order, once no column would be dropped. -/
theorem tableOperations_eq_ok_iff : tableOperations options declared observed = .ok operations ↔
    ∃ columns, columnsToAdd declared.columns observed.columns = .ok columns ∧
      operations = columns.map (.addColumn declared.path)
        ++ indexOperations options declared.path
          (indexDifference declared.indexes observed.indexes) observed.indexes
        ++ changefeedOperations declared.path
          (changefeedDifference declared.changefeeds observed.changefeeds)
        ++ settingsOperations options declared.path
          (settingsDifference declared.settings observed.settings) := by
  simp only [tableOperations, tableDifference, bind_eq_ok_iff, pure_eq_ok_iff]
  constructor
  · rintro ⟨_, ⟨columns, hcolumns, rfl⟩, rfl⟩
    exact ⟨columns, hcolumns, rfl⟩
  · rintro ⟨columns, hcolumns, rfl⟩
    exact ⟨_, ⟨columns, hcolumns, rfl⟩, rfl⟩

/-! ## Indexes -/

section Indexes

variable {declared observed : List Index}

/-- A changed index is to be added under a name that is already there. -/
theorem mem_changedIndexes {added : List Index} {name : String} :
    name ∈ changedIndexes added observed ↔
      name ∈ added.map Index.name ∧ name ∈ observed.map Index.name := by
  rw [changedIndexes, List.mem_filter, decide_eq_true_eq]

/-- An observed index has a declared partner exactly if neither source of drops names it. -/
theorem exists_sameAs_iff_not_dropped (hd : (declared.map Index.name).Nodup)
    (ho : (observed.map Index.name).Nodup) {o : Index} (hmem : o ∈ observed) :
    (∃ i ∈ declared, i.sameAs o = true) ↔
      o.name ∉ (indexDifference declared observed).drop ∧
        o.name ∉ changedIndexes (indexDifference declared observed).add observed := by
  have hname : o.name ∈ observed.map Index.name := List.mem_map_of_mem hmem
  rw [mem_drop_indexDifference, mem_changedIndexes]
  simp only [hname, true_and, and_true, not_not, List.mem_map, mem_add_indexDifference ho]
  constructor
  · rintro ⟨i, hi, hio⟩
    refine ⟨⟨i, hi, Index.name_eq_of_sameAs hio⟩, ?_⟩
    rintro ⟨k, ⟨hk, hnone⟩, hko⟩
    have hki : k = i :=
      List.inj_on_of_nodup_map hd hk hi (hko.trans (Index.name_eq_of_sameAs hio).symm)
    rw [hki] at hnone
    exact Bool.false_ne_true ((hnone o hmem).symm.trans hio)
  · rintro ⟨⟨i, hi, hio⟩, hadd⟩
    by_contra hnone
    refine hadd ⟨i, ⟨hi, fun j hj => ?_⟩, hio⟩
    -- `o` is the only observed index of the name of `i`
    by_contra hij
    rw [Bool.not_eq_false] at hij
    have hjo : j = o :=
      List.inj_on_of_nodup_map ho hj hmem ((Index.name_eq_of_sameAs hij).symm.trans hio)
    exact hnone ⟨i, hi, hjo ▸ hij⟩

/-- The index operations replace the indexes that differ. -/
theorem afterAll_indexOperations (hd : (declared.map Index.name).Nodup)
    (ho : (observed.map Index.name).Nodup) (hoptions : options.dropChangedIndexes = true)
    {t : Table} (ht : t.indexes = observed) (path : String) :
    t.afterAll (indexOperations options path (indexDifference declared observed) observed) =
      { t with indexes := replaced Index.sameAs declared observed } := by
  rw [indexOperations, if_pos hoptions, Table.afterAll_append, Table.afterAll_append,
    Table.afterAll_dropIndexes, Table.afterAll_dropIndexes, Table.afterAll_addIndexes]
  congr 1
  rw [ht, List.filter_filter, replaced]
  congr 1
  · refine List.filter_congr fun o hmem => ?_
    rw [Bool.eq_iff_iff, List.any_eq_true, exists_sameAs_iff_not_dropped hd ho hmem]
    simp [and_comm]
  · refine List.filter_congr fun i _ => ?_
    rw [Bool.eq_iff_iff, Bool.not_eq_true', Bool.not_eq_true', ← Bool.not_eq_true,
      ← Bool.not_eq_true, Index.isAmong_iff ho, List.any_eq_true]

end Indexes

/-! ## Changefeeds -/

section Changefeeds

variable {declared observed : List Changefeed}

/-- An observed changefeed has a declared partner exactly if it is not dropped. -/
theorem exists_sameAs_iff_not_droppedFeed (hd : (declared.map Changefeed.name).Nodup)
    (ho : (observed.map Changefeed.name).Nodup) {o : Changefeed} (hmem : o ∈ observed) :
    (∃ f ∈ declared, f.sameAs o = true) ↔
      o.name ∉ (changefeedDifference declared observed).drop := by
  rw [mem_drop_changefeedDifference hd]
  constructor
  · rintro ⟨f, hf, hfo⟩ ⟨p, hp, hnone, hpo⟩
    rw [List.inj_on_of_nodup_map ho hp hmem hpo] at hnone
    exact Bool.false_ne_true ((hnone f hf).symm.trans hfo)
  · intro hkept
    by_contra hnone
    exact hkept ⟨o, hmem, fun f hf => by simpa using fun h => hnone ⟨f, hf, h⟩, rfl⟩

/-- The changefeed operations replace the changefeeds that differ. -/
theorem afterAll_changefeedOperations (hd : (declared.map Changefeed.name).Nodup)
    (ho : (observed.map Changefeed.name).Nodup) {t : Table} (ht : t.changefeeds = observed)
    (path : String) :
    t.afterAll (changefeedOperations path (changefeedDifference declared observed)) =
      { t with changefeeds := replaced Changefeed.sameAs declared observed } := by
  rw [changefeedOperations, Table.afterAll_append, Table.afterAll_dropChangefeeds,
    Table.afterAll_addChangefeeds]
  congr 1
  rw [ht, replaced]
  congr 1
  · refine List.filter_congr fun o hmem => ?_
    rw [Bool.eq_iff_iff, List.any_eq_true, exists_sameAs_iff_not_droppedFeed hd ho hmem,
      decide_eq_true_eq]
  · refine List.filter_congr fun f _ => ?_
    rw [Bool.eq_iff_iff, Bool.not_eq_true', Bool.not_eq_true', ← Bool.not_eq_true,
      ← Bool.not_eq_true, Changefeed.isAmong_iff ho, List.any_eq_true]

end Changefeeds

/-! ## Settings -/

/-- Settings are overwritten, also where there are none and the operation is left out. -/
theorem afterAll_setTableSettings (t : Table) (path : String) (s : TableSettings) :
    t.afterAll (if s.isEmpty then [] else [.setTableSettings path s]) = t.overwriteSettings s := by
  split
  · rename_i hempty
    rw [Table.overwriteSettings_of_isEmpty hempty, Table.afterAll_nil]
  · rfl

/-- The settings operations carry out the difference of settings. -/
theorem afterAll_settingsOperations (hoptions : options.alterSettings = true) (t : Table)
    (path : String) (d : SettingsDifference) :
    t.afterAll (settingsOperations options path d) = t.settle d := by
  rw [settingsOperations, if_pos hoptions, Table.afterAll_append, afterAll_setTableSettings,
    Table.settle]
  split
  · rfl
  · rfl

/-! ## The whole plan -/

/-- The observed table with further columns, and with its indexes and changefeeds replaced where
they differ from the declared ones. -/
def Table.restructured (declared observed : Table) (columns : List Column) : Table :=
  { observed with
    columns := observed.columns ++ columns
    indexes := replaced Index.sameAs declared.indexes observed.indexes
    changefeeds := replaced Changefeed.sameAs declared.changefeeds observed.changefeeds }

/-- What the blocks before the settings make of the table. -/
theorem afterAll_structure (hd : declared.DistinctNames) (ho : observed.DistinctNames)
    (hindexes : options.dropChangedIndexes = true) (path : String) (columns : List Column) :
    observed.afterAll (columns.map (.addColumn path)
        ++ indexOperations options path (indexDifference declared.indexes observed.indexes)
          observed.indexes
        ++ changefeedOperations path
          (changefeedDifference declared.changefeeds observed.changefeeds)) =
      declared.restructured observed columns := by
  let added : Table := { observed with columns := observed.columns ++ columns }
  let indexed : Table :=
    { added with indexes := replaced Index.sameAs declared.indexes observed.indexes }
  rw [Table.afterAll_append, Table.afterAll_append, Table.afterAll_addColumns,
    afterAll_indexOperations (t := added) hd.indexes ho.indexes hindexes rfl,
    afterAll_changefeedOperations (t := indexed) hd.changefeeds ho.changefeeds rfl]
  rfl

/-- After the plan the missing columns are there, indexes and changefeeds have been replaced, and
the difference of settings has been carried out. -/
theorem afterAll_tableOperations (hd : declared.DistinctNames) (ho : observed.DistinctNames)
    (h : tableOperations {} declared observed = .ok operations) :
    ∃ columns, columnsToAdd declared.columns observed.columns = .ok columns ∧
      observed.afterAll operations = (declared.restructured observed columns).settle
        (settingsDifference declared.settings observed.settings) := by
  obtain ⟨columns, hcolumns, rfl⟩ := tableOperations_eq_ok_iff.1 h
  exact ⟨columns, hcolumns, by
    rw [Table.afterAll_append, afterAll_structure hd ho rfl, afterAll_settingsOperations rfl]⟩

/-! ## A table that changes in every part -/

/-- The declaration : one index and one changefeed are declared differently than `seriesObserved`
has them, and rows do not expire. -/
def seriesDeclared : Table where
  path := "dir/series"
  columns := [{ name := "id", type := "Uint64" }, { name := "title", type := "Utf8" },
    { name := "rating", type := "Double" }]
  primaryKey := ["id"]
  indexes := [{ name := "by_title", columns := ["title"], cover := ["rating"] }]
  partitioning := some { minPartitions := some 2, maxPartitions := some 8 }
  changefeeds := [{ name := "updates", retention := some "PT48H" }, { name := "audit" }]

/-- The table as it is. -/
def seriesObserved : Table where
  path := "dir/series"
  columns := [{ name := "title", type := "Utf8" }, { name := "id", type := "Uint64" }]
  primaryKey := ["id"]
  indexes := [{ name := "by_id", columns := ["id"] }, { name := "by_title", columns := ["title"] }]
  ttl := some { column := "id", interval := "P30D" }
  partitioning := some { minPartitions := some 2 }
  changefeeds := [{ name := "updates" }]

/-- The operations that bring `seriesObserved` to `seriesDeclared`. -/
def seriesOperations : List Operation :=
  [.addColumn "dir/series" { name := "rating", type := "Double" },
    .dropIndex "dir/series" "by_id",
    .dropIndex "dir/series" "by_title",
    .addIndex "dir/series" { name := "by_title", columns := ["title"], cover := ["rating"] },
    .dropChangefeed "dir/series" "updates",
    .addChangefeed "dir/series" { name := "updates", retention := some "PT48H" },
    .addChangefeed "dir/series" { name := "audit" },
    .setTableSettings "dir/series" { partitioning := some { maxPartitions := some 8 } },
    .resetTtl "dir/series"]

theorem distinctNames_seriesDeclared : seriesDeclared.DistinctNames :=
  ⟨by decide, by decide⟩

theorem distinctNames_seriesObserved : seriesObserved.DistinctNames :=
  ⟨by decide, by decide⟩

theorem tableOperations_series :
    tableOperations {} seriesDeclared seriesObserved = .ok seriesOperations :=
  rfl

end SchemaPlan
