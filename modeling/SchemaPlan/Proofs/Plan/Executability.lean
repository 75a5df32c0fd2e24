import SchemaPlan.Proofs.Plan.TableRun
import SchemaPlan.Proofs.Table.Validation

/-!
# Plans for tables can be executed step by step

`executable_tableOperations` : every operation of a plan for an accepted declaration is executable
in the state that the operations before it leave. The blocks of the plan are taken one by one, each
from the state the one before it leaves : columns are there before the indexes over them, and an
index or changefeed that is declared differently is dropped before it is added.
-/

namespace SchemaPlan

variable {options : PlanOptions} {t : Table} (path : String)

/-! ## Columns -/

/-- Every declared column is there once the missing ones have been added. -/
theorem mem_columnNames_append {declared observed columns : List Column}
    (h : columnsToAdd declared observed = .ok columns) {name : String}
    (hname : name ∈ declared.map Column.name) : name ∈ (observed ++ columns).map Column.name := by
  obtain ⟨-, rfl⟩ := columnsToAdd_eq_ok_iff.1 h
  rw [List.map_append, List.mem_append]
  by_cases hin : name ∈ observed.map Column.name
  · exact .inl hin
  · obtain ⟨c, hc, rfl⟩ := List.mem_map.1 hname
    exact .inr (List.mem_map_of_mem (List.mem_filter.2 ⟨hc, by simpa using hin⟩))

/-- The columns that are added are new. -/
theorem executes_columnsToAdd {declared columns : List Column}
    (hd : (declared.map Column.name).Nodup) (h : columnsToAdd declared t.columns = .ok columns) :
    t.Executes (columns.map (.addColumn path)) := by
  obtain ⟨-, rfl⟩ := columnsToAdd_eq_ok_iff.1 h
  refine Table.executes_addColumns path (hd.sublist (List.filter_sublist.map _)) fun c hc => ?_
  simpa [Table.columnNames] using (List.mem_filter.1 hc).2

/-! ## Indexes -/

section Indexes

variable {declared observed : List Index}

/-- Indexes are dropped while they are there and added when their names are free and their columns
are there. -/
theorem executes_indexOperations (hd : (declared.map Index.name).Nodup)
    (ho : (observed.map Index.name).Nodup) (hoptions : options.dropChangedIndexes = true)
    (ht : t.indexes = observed)
    (hcolumns : ∀ i ∈ declared, ∀ column ∈ i.columns ++ i.cover, column ∈ t.columnNames) :
    t.Executes (indexOperations options path (indexDifference declared observed) observed) := by
  have hadd : ((indexDifference declared observed).add.map Index.name).Nodup :=
    hd.sublist (List.filter_sublist.map _)
  rw [indexOperations, if_pos hoptions, Table.executes_append, Table.executes_append,
    Table.afterAll_append, Table.afterAll_dropIndexes, Table.afterAll_dropIndexes]
  refine ⟨⟨?_, ?_⟩, ?_⟩
  · refine Table.executes_dropIndexes path (ho.sublist List.filter_sublist) fun name hname => ?_
    rw [ht]
    exact (mem_drop_indexDifference.1 hname).1
  · refine Table.executes_dropIndexes path (hadd.sublist List.filter_sublist) fun name hname => ?_
    obtain ⟨hadded, hobserved⟩ := mem_changedIndexes.1 hname
    obtain ⟨i, hi, rfl⟩ := List.mem_map.1 hadded
    obtain ⟨o, hmem, hoi⟩ := List.mem_map.1 hobserved
    -- the name is declared, so the drops before have left it
    have hkept : i.name ∉ (indexDifference declared observed).drop := fun h =>
      (mem_drop_indexDifference.1 h).2 (List.mem_map_of_mem ((mem_add_indexDifference ho).1 hi).1)
    rw [← hoi] at hkept ⊢
    exact List.mem_map_of_mem (List.mem_filter.2 ⟨ht ▸ hmem, by simpa using hkept⟩)
  · refine Table.executes_addIndexes path hadd (fun i hi hin => ?_) fun i hi =>
      hcolumns i ((mem_add_indexDifference ho).1 hi).1
    obtain ⟨o, hmem, hoi⟩ := List.mem_map.1 hin
    simp only [List.mem_filter, ht, decide_eq_true_eq, hoi] at hmem
    exact hmem.2 (mem_changedIndexes.2
      ⟨List.mem_map_of_mem hi, hoi ▸ List.mem_map_of_mem hmem.1.1⟩)

end Indexes

/-! ## Changefeeds -/

section Changefeeds

variable {declared observed : List Changefeed}

theorem executes_changefeedOperations (hd : (declared.map Changefeed.name).Nodup)
    (ho : (observed.map Changefeed.name).Nodup) (ht : t.changefeeds = observed) :
    t.Executes (changefeedOperations path (changefeedDifference declared observed)) := by
  rw [changefeedOperations, Table.executes_append, Table.afterAll_dropChangefeeds]
  constructor
  · refine Table.executes_dropChangefeeds path (ho.sublist (List.filter_sublist.map _))
      fun name hname => ?_
    obtain ⟨o, hmem, -, rfl⟩ := (mem_drop_changefeedDifference hd).1 hname
    exact List.mem_map_of_mem (ht ▸ hmem)
  · refine Table.executes_addChangefeeds path (hd.sublist (List.filter_sublist.map _))
      fun f hf hin => ?_
    obtain ⟨hfd, hnone⟩ := (mem_add_changefeedDifference ho).1 hf
    obtain ⟨o, hmem, hof⟩ := List.mem_map.1 hin
    rw [List.mem_filter, ht, decide_eq_true_eq] at hmem
    -- an observed changefeed that is still there has a declared partner, which can only be `f`
    obtain ⟨g, hg, hgo⟩ := (exists_sameAs_iff_not_droppedFeed hd ho hmem.1).2 hmem.2
    have hgf : g = f :=
      List.inj_on_of_nodup_map hd hg hfd ((Changefeed.name_eq_of_sameAs hgo).trans hof)
    rw [hgf, hnone o hmem.1] at hgo
    contradiction

end Changefeeds

/-! ## Settings -/

/-- Settings can be changed if the column of the time to live is there. -/
theorem executes_settingsOperations {declared : TableSettings}
    (hoptions : options.alterSettings = true)
    (hcolumn : ∀ ttl, declared.ttl = some ttl → ttl.column ∈ t.columnNames) :
    t.Executes (settingsOperations options path (settingsDifference declared t.settings)) := by
  rw [settingsOperations, if_pos hoptions, Table.executes_append, afterAll_setTableSettings]
  constructor
  · split
    · trivial
    · exact ⟨fun ttl httl => hcolumn ttl (Option.filter_eq_some_iff.1 httl).1, trivial⟩
  · split
    · rename_i hreset
      simp only [settingsDifference, Table.settings_ttl, Bool.and_eq_true] at hreset
      -- setting the other settings has left the expiry
      obtain ⟨ttl, httl⟩ := Option.isSome_iff_exists.1 hreset.2
      exact ⟨by simp [Operation.Executable, Table.overwriteSettings, orKeep, httl], trivial⟩
    · trivial

/-! ## The whole plan -/

/-- Each operation of a plan for an accepted declaration can be executed in the state in which the
operations before it leave the table. -/
theorem executable_tableOperations {declared observed : Table} {operations : List Operation}
    (hvalid : declared.validate = .ok ()) (hd : declared.DistinctNames)
    (ho : observed.DistinctNames) (h : tableOperations {} declared observed = .ok operations)
    {before after : List Operation} {operation : Operation}
    (hsplit : operations = before ++ operation :: after) :
    operation.Executable (observed.afterAll before) := by
  suffices hexecutes : observed.Executes operations by
    exact Table.executable_of_executes observed (hsplit ▸ hexecutes)
  obtain ⟨columns, hcolumns, rfl⟩ := tableOperations_eq_ok_iff.1 h
  let added : Table := { observed with columns := observed.columns ++ columns }
  have hthere : ∀ name ∈ declared.columnNames, name ∈ added.columnNames := fun name =>
    mem_columnNames_append hcolumns
  rw [Table.executes_append, afterAll_structure hd ho rfl, Table.executes_append,
    Table.executes_append, Table.afterAll_append, Table.afterAll_addColumns,
    afterAll_indexOperations (t := added) hd.indexes ho.indexes rfl rfl]
  refine ⟨⟨⟨?_, ?_⟩, ?_⟩, ?_⟩
  · exact executes_columnsToAdd _ (Table.nodup_columnNames_of_validate hvalid) hcolumns
  · exact executes_indexOperations _ hd.indexes ho.indexes rfl rfl fun i hi column hc =>
      hthere column (Table.mem_columnNames_of_index hvalid hi hc)
  · exact executes_changefeedOperations _ hd.changefeeds ho.changefeeds rfl
  · exact executes_settingsOperations (t := declared.restructured observed columns) _ rfl
      fun ttl httl => hthere _ (Table.mem_columnNames_of_ttl hvalid httl)

/-- The plan for the table of series, stopped before its fourth operation. -/
theorem executable_tableOperations_series :
    seriesDeclared.validate = .ok () ∧
      tableOperations {} seriesDeclared seriesObserved = .ok seriesOperations ∧
      seriesOperations = seriesOperations.take 3 ++ .addIndex "dir/series"
        { name := "by_title", columns := ["title"], cover := ["rating"] }
          :: seriesOperations.drop 4 ∧
      (Operation.addIndex "dir/series"
        { name := "by_title", columns := ["title"], cover := ["rating"] }).Executable
          (seriesObserved.afterAll (seriesOperations.take 3)) :=
  ⟨rfl, tableOperations_series, rfl, executable_tableOperations rfl distinctNames_seriesDeclared
    distinctNames_seriesObserved tableOperations_series rfl⟩

end SchemaPlan
