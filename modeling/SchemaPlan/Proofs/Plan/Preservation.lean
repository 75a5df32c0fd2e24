import SchemaPlan.Operation.Preservation
import SchemaPlan.Proofs.Plan.TableRun

/-!
# Plans for tables keep what they must not touch

`planned_of_mem_tableOperations` sums up what a plan for a table may contain and why. Each such
operation keeps what must be kept (`Planned.preserves`), and so does a run of them
(`preserves_afterAll`). An operation that is about another index leaves the indexes of a name alone
(`indexesNamed_onTable`), and a plan has no operation about an index that is observed as it is
declared (`Planned.index?_ne`); for changefeeds it is the same. All together this is
`tableOperations_preserves`.
-/

namespace SchemaPlan

variable {options : PlanOptions} {declared observed : Table} {operation : Operation}
  {operations : List Operation}

/-! ## What a plan may contain -/

/-- The operations that a plan for a table may contain, each with the reason for it. -/
inductive Planned (options : PlanOptions) (declared observed : Table) : Operation → Prop
  | addColumn {c : Column} (hc : c ∈ declared.columns) (hnew : c.name ∉ observed.columnNames) :
      Planned options declared observed (.addColumn declared.path c)
  | dropIndex {name : String} (hobserved : name ∈ observed.indexes.map Index.name)
      (hundeclared : name ∉ declared.indexes.map Index.name) :
      Planned options declared observed (.dropIndex declared.path name)
  | dropChangedIndex {i : Index} (hoption : options.dropChangedIndexes = true)
      (hi : i ∈ (indexDifference declared.indexes observed.indexes).add)
      (hobserved : i.name ∈ observed.indexes.map Index.name) :
      Planned options declared observed (.dropIndex declared.path i.name)
  | addIndex {i : Index} (hi : i ∈ (indexDifference declared.indexes observed.indexes).add) :
      Planned options declared observed (.addIndex declared.path i)
  | dropChangefeed {name : String}
      (hname : name ∈ (changefeedDifference declared.changefeeds observed.changefeeds).drop) :
      Planned options declared observed (.dropChangefeed declared.path name)
  | addChangefeed {f : Changefeed}
      (hf : f ∈ (changefeedDifference declared.changefeeds observed.changefeeds).add) :
      Planned options declared observed (.addChangefeed declared.path f)
  | setSettings (hoption : options.alterSettings = true) :
      Planned options declared observed (.setTableSettings declared.path
        (settingsDifference declared.settings observed.settings).set)
  | resetTtl (hoption : options.alterSettings = true) (hdeclared : declared.ttl = none)
      (hobserved : observed.ttl ≠ none) :
      Planned options declared observed (.resetTtl declared.path)

/-- Each operation on an index has its reason. -/
theorem planned_of_mem_indexOperations
    (h : operation ∈ indexOperations options declared.path
      (indexDifference declared.indexes observed.indexes) observed.indexes) :
    Planned options declared observed operation := by
  simp only [indexOperations, List.mem_append, List.mem_map] at h
  rcases h with (⟨name, hname, rfl⟩ | h) | ⟨i, hi, rfl⟩
  · obtain ⟨hobserved, hundeclared⟩ := mem_drop_indexDifference.1 hname
    exact .dropIndex hobserved hundeclared
  · split at h
    · rename_i hoption
      obtain ⟨name, hname, rfl⟩ := List.mem_map.1 h
      obtain ⟨hadded, hobserved⟩ := mem_changedIndexes.1 hname
      obtain ⟨i, hi, rfl⟩ := List.mem_map.1 hadded
      exact .dropChangedIndex hoption hi hobserved
    · exact absurd h List.not_mem_nil
  · exact .addIndex hi

theorem planned_of_mem_changefeedOperations
    (h : operation ∈ changefeedOperations declared.path
      (changefeedDifference declared.changefeeds observed.changefeeds)) :
    Planned options declared observed operation := by
  simp only [changefeedOperations, List.mem_append, List.mem_map] at h
  rcases h with ⟨name, hname, rfl⟩ | ⟨f, hf, rfl⟩
  · exact .dropChangefeed hname
  · exact .addChangefeed hf

theorem planned_of_mem_settingsOperations
    (h : operation ∈ settingsOperations options declared.path
      (settingsDifference declared.settings observed.settings)) :
    Planned options declared observed operation := by
  unfold settingsOperations at h
  split at h
  · rename_i hoption
    rcases List.mem_append.1 h with h | h
    · split at h
      · exact absurd h List.not_mem_nil
      · rw [List.mem_singleton.1 h]
        exact .setSettings hoption
    · split at h
      · rename_i hreset
        simp only [settingsDifference, Bool.and_eq_true, Option.isNone_iff_eq_none] at hreset
        rw [List.mem_singleton.1 h]
        exact .resetTtl hoption hreset.1 (Option.isSome_iff_ne_none.1 hreset.2)
      · exact absurd h List.not_mem_nil
  · exact absurd h List.not_mem_nil

/-- A plan for a table contains nothing else. -/
theorem planned_of_mem_tableOperations
    (h : tableOperations options declared observed = .ok operations)
    (hmem : operation ∈ operations) : Planned options declared observed operation := by
  obtain ⟨columns, hcolumns, rfl⟩ := tableOperations_eq_ok_iff.1 h
  simp only [List.mem_append] at hmem
  rcases hmem with ((hmem | hmem) | hmem) | hmem
  · obtain ⟨c, hc, rfl⟩ := List.mem_map.1 hmem
    rw [(columnsToAdd_eq_ok_iff.1 hcolumns).2, List.mem_filter, decide_eq_true_eq] at hc
    exact .addColumn hc.1 hc.2
  · exact planned_of_mem_indexOperations hmem
  · exact planned_of_mem_changefeedOperations hmem
  · exact planned_of_mem_settingsOperations hmem

/-! ## Columns, settings and the rest -/

theorem Partitioning.Preserves.refl (d p : Partitioning) : d.Preserves p p :=
  ⟨rfl, rfl, fun _ => rfl, fun _ => rfl, fun _ => rfl, fun _ => rfl, fun _ => rfl⟩

theorem Partitioning.Preserves.trans {d p q r : Partitioning} (hpq : d.Preserves p q)
    (hqr : d.Preserves q r) : d.Preserves p r where
  uniformPartitions := hqr.uniformPartitions.trans hpq.uniformPartitions
  splitPoints := hqr.splitPoints.trans hpq.splitPoints
  minPartitions h := (hqr.minPartitions h).trans (hpq.minPartitions h)
  maxPartitions h := (hqr.maxPartitions h).trans (hpq.maxPartitions h)
  byLoad h := (hqr.byLoad h).trans (hpq.byLoad h)
  bySize h := (hqr.bySize h).trans (hpq.bySize h)
  sizeThreshold h := (hqr.sizeThreshold h).trans (hpq.sizeThreshold h)

/-- A setting that is not declared keeps its old value. -/
theorem orKeep_changed?_of_none {α : Type} [DecidableEq α] {d : Option α} (h : d = none)
    (observed old : Option α) : orKeep (changed? d observed) old = old := by
  rw [h]
  rfl

/-- Overwriting declared fields keeps the others. -/
theorem preserves_overwrite_changedPartitioning (d observed p : Partitioning) :
    d.Preserves p ((changedPartitioning d observed).overwrite p) where
  uniformPartitions := rfl
  splitPoints := rfl
  minPartitions h := orKeep_changed?_of_none h _ _
  maxPartitions h := orKeep_changed?_of_none h _ _
  byLoad h := orKeep_changed?_of_none h _ _
  bySize h := orKeep_changed?_of_none h _ _
  sizeThreshold h := orKeep_changed?_of_none h _ _

namespace Table

variable {t u v : Table}

/-- Where settings are kept as well, only what no statement alters is left to be compared. -/
theorem preserves_of_settings_eq (hpath : u.path = t.path) (hcolumns : t.columns <+: u.columns)
    (hkey : u.primaryKey = t.primaryKey) (hfamilies : u.families = t.families)
    (hattributes : u.attributes = t.attributes) (hsettings : u.settings = t.settings) :
    declared.Preserves options t u where
  path := hpath
  columns := hcolumns
  primaryKey := hkey
  families := hfamilies
  attributes := hattributes
  partitioning := by
    rw [← settings_partitioning u, hsettings, settings_partitioning]
    exact Partitioning.Preserves.refl _ _
  replication _ := by rw [← settings_replication u, hsettings, settings_replication]
  settings _ := hsettings

theorem Preserves.refl (options : PlanOptions) (declared t : Table) :
    declared.Preserves options t t :=
  preserves_of_settings_eq rfl List.prefix_rfl rfl rfl rfl rfl

theorem Preserves.trans (htu : declared.Preserves options t u)
    (huv : declared.Preserves options u v) : declared.Preserves options t v where
  path := huv.path.trans htu.path
  columns := htu.columns.trans huv.columns
  primaryKey := huv.primaryKey.trans htu.primaryKey
  families := huv.families.trans htu.families
  attributes := huv.attributes.trans htu.attributes
  partitioning := htu.partitioning.trans huv.partitioning
  replication h := (huv.replication h).trans (htu.replication h)
  settings h := (huv.settings h).trans (htu.settings h)

/-- Overwriting declared settings keeps the others. -/
theorem preserves_overwriteSettings (hoption : options.alterSettings = true) :
    declared.Preserves options t
      (t.overwriteSettings (settingsDifference declared.settings observed.settings).set) where
  path := rfl
  columns := List.prefix_rfl
  primaryKey := rfl
  families := rfl
  attributes := rfl
  partitioning := by
    simp only [overwriteSettings, settingsDifference, settings_partitioning]
    cases declared.partitioning with
    | none => exact Partitioning.Preserves.refl _ _
    | some p =>
      rw [Option.map_some, Option.filter_some]
      split
      · rename_i q hq
        split at hq
        · obtain rfl := Option.some.inj hq
          exact preserves_overwrite_changedPartitioning _ _ _
        · cases hq
      · exact Partitioning.Preserves.refl _ _
  replication h := by
    simp only [overwriteSettings, settingsDifference, settings_replication, h]
    rfl
  settings h := absurd (hoption.symm.trans h) (by decide)

end Table

/-- An operation of a plan keeps what must be kept. -/
theorem Planned.preserves (h : Planned options declared observed operation) (t : Table) :
    declared.Preserves options t (operation.onTable t) := by
  cases h with
  | addColumn =>
    exact Table.preserves_of_settings_eq rfl (List.prefix_append _ _) rfl rfl rfl rfl
  | dropIndex => exact Table.preserves_of_settings_eq rfl List.prefix_rfl rfl rfl rfl rfl
  | dropChangedIndex => exact Table.preserves_of_settings_eq rfl List.prefix_rfl rfl rfl rfl rfl
  | addIndex => exact Table.preserves_of_settings_eq rfl List.prefix_rfl rfl rfl rfl rfl
  | dropChangefeed => exact Table.preserves_of_settings_eq rfl List.prefix_rfl rfl rfl rfl rfl
  | addChangefeed => exact Table.preserves_of_settings_eq rfl List.prefix_rfl rfl rfl rfl rfl
  | setSettings hoption => exact Table.preserves_overwriteSettings hoption
  | resetTtl hoption =>
    exact ⟨rfl, List.prefix_rfl, rfl, rfl, rfl, Partitioning.Preserves.refl _ _, fun _ => rfl,
      fun hkeep => absurd (hoption.symm.trans hkeep) (by decide)⟩

/-- A run of planned operations preserves what each of them does. -/
theorem preserves_afterAll
    (h : ∀ operation ∈ operations, Planned options declared observed operation) (t : Table) :
    declared.Preserves options t (t.afterAll operations) := by
  induction operations generalizing t with
  | nil => exact Table.Preserves.refl options declared t
  | cons operation operations ih =>
    obtain ⟨hfirst, hrest⟩ := List.forall_mem_cons.1 h
    exact (hfirst.preserves t).trans (ih hrest (operation.onTable t))

/-! ## Indexes and changefeeds of a name -/

section Names

variable {name : String}

/-- An operation of a plan leaves the indexes of a name alone if it is about none of them. -/
theorem Planned.filter_indexes (h : Planned options declared observed operation)
    (hother : operation.index? ≠ some name) (t : Table) :
    (operation.onTable t).indexes.filter (fun i => i.name = name) =
      t.indexes.filter fun i => i.name = name := by
  cases h with
  | dropIndex => exact filter_name_of_drop (fun heq => hother (congrArg some heq)) _
  | dropChangedIndex => exact filter_name_of_drop (fun heq => hother (congrArg some heq)) _
  | addIndex => exact filter_name_of_add (fun heq => hother (congrArg some heq)) _
  | addColumn => rfl
  | dropChangefeed => rfl
  | addChangefeed => rfl
  | setSettings => rfl
  | resetTtl => rfl

theorem Planned.filter_changefeeds (h : Planned options declared observed operation)
    (hother : operation.changefeed? ≠ some name) (t : Table) :
    (operation.onTable t).changefeeds.filter (fun f => f.name = name) =
      t.changefeeds.filter fun f => f.name = name := by
  cases h with
  | dropChangefeed => exact filter_name_of_drop (fun heq => hother (congrArg some heq)) _
  | addChangefeed => exact filter_name_of_add (fun heq => hother (congrArg some heq)) _
  | addColumn => rfl
  | dropIndex => rfl
  | dropChangedIndex => rfl
  | addIndex => rfl
  | setSettings => rfl
  | resetTtl => rfl

/-- What every operation of a run leaves alone, the run does. -/
theorem afterAll_eq_of_onTable_eq {β : Type} (part : Table → β)
    (h : ∀ operation ∈ operations, ∀ t, part (operation.onTable t) = part t) (t : Table) :
    part (t.afterAll operations) = part t := by
  induction operations generalizing t with
  | nil => rfl
  | cons operation operations ih =>
    obtain ⟨hfirst, hrest⟩ := List.forall_mem_cons.1 h
    exact (ih hrest (operation.onTable t)).trans (hfirst t)

/-- No operation of a plan is about an index that is observed as it is declared. -/
theorem Planned.index?_ne (h : Planned options declared observed operation)
    (hd : declared.DistinctNames) (ho : observed.DistinctNames) {o : Index}
    (hmem : o ∈ observed.indexes) (hdeclared : ∃ i ∈ declared.indexes, i.sameAs o = true) :
    operation.index? ≠ some o.name := by
  obtain ⟨hkept, hsame⟩ := (exists_sameAs_iff_not_dropped hd.indexes ho.indexes hmem).1 hdeclared
  have hadded : ∀ i ∈ (indexDifference declared.indexes observed.indexes).add,
      i.name ≠ o.name := fun i hi hname => hsame <|
    mem_changedIndexes.2 ⟨hname ▸ List.mem_map_of_mem hi, List.mem_map_of_mem hmem⟩
  intro habout
  cases h with
  | dropIndex hobserved hundeclared =>
    obtain rfl := Option.some.inj habout
    exact hkept (mem_drop_indexDifference.2 ⟨hobserved, hundeclared⟩)
  | dropChangedIndex _ hi => exact hadded _ hi (Option.some.inj habout)
  | addIndex hi => exact hadded _ hi (Option.some.inj habout)
  | addColumn => cases habout
  | dropChangefeed => cases habout
  | addChangefeed => cases habout
  | setSettings => cases habout
  | resetTtl => cases habout

/-- No operation of a plan is about a changefeed that is observed as it is declared. -/
theorem Planned.changefeed?_ne (h : Planned options declared observed operation)
    (hd : declared.DistinctNames) (ho : observed.DistinctNames) {o : Changefeed}
    (hmem : o ∈ observed.changefeeds)
    (hdeclared : ∃ f ∈ declared.changefeeds, f.sameAs o = true) :
    operation.changefeed? ≠ some o.name := by
  have hkept := (exists_sameAs_iff_not_droppedFeed hd.changefeeds ho.changefeeds hmem).1 hdeclared
  obtain ⟨g, hg, hgo⟩ := hdeclared
  intro habout
  cases h with
  | dropChangefeed hname => exact hkept (Option.some.inj habout ▸ hname)
  | addChangefeed hf =>
    obtain ⟨hfd, hnone⟩ := (mem_add_changefeedDifference ho.changefeeds).1 hf
    -- the declared changefeed of the name is the one that is observed
    have hgf : g = _ := List.inj_on_of_nodup_map hd.changefeeds hg hfd
      ((Changefeed.name_eq_of_sameAs hgo).trans (Option.some.inj habout).symm)
    exact Bool.false_ne_true ((hnone o hmem).symm.trans (hgf ▸ hgo))
  | addColumn => cases habout
  | dropIndex => cases habout
  | dropChangedIndex => cases habout
  | addIndex => cases habout
  | setSettings => cases habout
  | resetTtl => cases habout

/-- Without the option to drop them, indexes that are declared are not dropped. -/
theorem Planned.ne_dropIndex (h : Planned options declared observed operation)
    (hoption : options.dropChangedIndexes = false) (hname : name ∈ declared.indexes.map Index.name)
    (path : String) : operation ≠ .dropIndex path name := by
  rintro rfl
  cases h with
  | dropIndex _ hundeclared => exact hundeclared hname
  | dropChangedIndex hdrops => exact Bool.false_ne_true (hoption.symm.trans hdrops)

end Names

/-! ## The whole plan -/

/-- The error of a plan that would drop columns names them, in the order in which they are
observed. -/
theorem tableOperations_of_droppedColumns
    (h : droppedColumns declared.columns observed.columns ≠ []) :
    tableOperations options declared observed =
      .error (.droppedColumns (droppedColumns declared.columns observed.columns)) := by
  rw [tableOperations, tableDifference, columnsToAdd]
  split
  · rename_i hnone
    exact absurd hnone h
  · rfl

/-- The operations of a plan keep the columns that are observed, everything that no statement can
alter, and the settings that are not declared. An index or changefeed that is observed as it is
declared stays, and no operation is about it; if changed indexes are not to be dropped, no operation
drops an index that is declared. If columns are observed that are not declared there are no
operations but an error, which names these columns in the order in which they are observed. -/
theorem tableOperations_preserves (hd : declared.DistinctNames) (ho : observed.DistinctNames)
    (options : PlanOptions) :
    (∀ operations, tableOperations options declared observed = .ok operations →
      declared.Preserves options observed (observed.afterAll operations) ∧
      (∀ o ∈ observed.indexes, (∃ i ∈ declared.indexes, i.sameAs o = true) →
        o ∈ (observed.afterAll operations).indexes ∧
          ∀ operation ∈ operations, operation.index? ≠ some o.name) ∧
      (∀ o ∈ observed.changefeeds, (∃ f ∈ declared.changefeeds, f.sameAs o = true) →
        o ∈ (observed.afterAll operations).changefeeds ∧
          ∀ operation ∈ operations, operation.changefeed? ≠ some o.name) ∧
      (options.dropChangedIndexes = false →
        ∀ i ∈ declared.indexes, ∀ path, .dropIndex path i.name ∉ operations)) ∧
    ((∃ c ∈ observed.columns, c.name ∉ declared.columnNames) →
      tableOperations options declared observed = .error (.droppedColumns
        ((observed.columns.filter fun c => c.name ∉ declared.columnNames).map Column.name))) := by
  constructor
  · intro operations h
    have hplanned : ∀ operation ∈ operations, Planned options declared observed operation :=
      fun _ => planned_of_mem_tableOperations h
    refine ⟨preserves_afterAll hplanned observed, fun o hmem hdeclared => ?_,
      fun o hmem hdeclared => ?_, fun hoption i hi path hdrop => ?_⟩
    · have hothers : ∀ operation ∈ operations, operation.index? ≠ some o.name :=
        fun operation hoperation => (hplanned operation hoperation).index?_ne hd ho hmem hdeclared
      have hsame := afterAll_eq_of_onTable_eq (fun t => t.indexes.filter fun i => i.name = o.name)
        (fun operation hoperation =>
          (hplanned operation hoperation).filter_indexes (hothers operation hoperation)) observed
      exact ⟨mem_of_filter_name_eq hsame hmem, hothers⟩
    · have hothers : ∀ operation ∈ operations, operation.changefeed? ≠ some o.name :=
        fun operation hoperation =>
          (hplanned operation hoperation).changefeed?_ne hd ho hmem hdeclared
      have hsame := afterAll_eq_of_onTable_eq
        (fun t => t.changefeeds.filter fun f => f.name = o.name)
        (fun operation hoperation => (hplanned operation hoperation).filter_changefeeds
          (hothers operation hoperation)) observed
      exact ⟨mem_of_filter_name_eq hsame hmem, hothers⟩
    · exact (hplanned _ hdrop).ne_dropIndex hoption (List.mem_map_of_mem hi) path rfl
  · rintro ⟨c, hc, hundeclared⟩
    have hdropped : droppedColumns declared.columns observed.columns =
        (observed.columns.filter fun c => c.name ∉ declared.columnNames).map Column.name := by
      rw [droppedColumns, List.filter_map]
      rfl
    rw [← hdropped]
    refine tableOperations_of_droppedColumns fun hnone => ?_
    exact hundeclared (droppedColumns_eq_nil_iff.1 hnone c.name (List.mem_map_of_mem hc))

/-- `seriesObserved` with the index that is declared, so that only the rest has to change. -/
def seriesIndexed : Table :=
  { seriesObserved with indexes := seriesDeclared.indexes }

/-- `seriesDeclared` without the columns that are observed. -/
def seriesRated : Table :=
  { seriesDeclared with columns := [{ name := "rating", type := "Double" }] }

/-- The table of series with both options off, with an index that is as declared, and with columns
that are not declared. -/
theorem tableOperations_preserves_series :
    (∃ operations, tableOperations ⟨false, false⟩ seriesDeclared seriesObserved = .ok operations ∧
      seriesDeclared.Preserves ⟨false, false⟩ seriesObserved (seriesObserved.afterAll operations) ∧
      .dropIndex "dir/series" "by_title" ∉ operations) ∧
    (∃ operations, tableOperations {} seriesDeclared seriesIndexed = .ok operations ∧
      ⟨"by_title", .sync, ["title"], ["rating"]⟩ ∈ (seriesIndexed.afterAll operations).indexes ∧
      ∀ operation ∈ operations, operation.index? ≠ some "by_title") ∧
    tableOperations {} seriesRated seriesObserved = .error (.droppedColumns ["title", "id"]) := by
  have hindexed : seriesIndexed.DistinctNames := ⟨by decide, by decide⟩
  have hrated : seriesRated.DistinctNames := ⟨by decide, by decide⟩
  refine ⟨⟨_, rfl, ?_⟩, ⟨_, rfl, ?_⟩, ?_⟩
  · obtain ⟨hkept, -, -, hdrops⟩ := (tableOperations_preserves distinctNames_seriesDeclared
      distinctNames_seriesObserved ⟨false, false⟩).1 _ rfl
    exact ⟨hkept, hdrops rfl _ List.mem_cons_self "dir/series"⟩
  · obtain ⟨-, hindexes, -⟩ :=
      (tableOperations_preserves distinctNames_seriesDeclared hindexed {}).1 _ rfl
    exact hindexes ⟨"by_title", .sync, ["title"], ["rating"]⟩ List.mem_cons_self
      ⟨_, List.mem_cons_self, by decide⟩
  · exact (tableOperations_preserves hrated distinctNames_seriesObserved {}).2
      ⟨⟨"title", "Utf8", none, false⟩, List.mem_cons_self, by decide⟩

end SchemaPlan
