import SchemaPlan.Operation.Effect
import SchemaPlan.Proofs.Named
import SchemaPlan.Proofs.Step
import SchemaPlan.Table.Difference

/-!
# When nothing differs

For each part of a table, the observed state in which its difference from the declaration is
empty : all declared columns are there, indexes and changefeeds have been `replaced`, and the
settings that differ have been overwritten. With distinct names, matching by name is matching by
content (`Index.isAmong_iff`, `Changefeed.isAmong_iff`).
-/

namespace SchemaPlan

/-! ## Columns -/

/-- The columns to add are the declared ones that are not there, once none would be dropped. -/
theorem columnsToAdd_eq_ok_iff {declared observed columns : List Column} :
    columnsToAdd declared observed = .ok columns ↔ droppedColumns declared observed = [] ∧
      columns = declared.filter fun c => c.name ∉ observed.map Column.name := by
  unfold columnsToAdd
  cases h : droppedColumns declared observed with
  | nil => simp [eq_comm]
  | cons name names => simp

/-- No column would be dropped exactly if every observed name is declared. -/
theorem droppedColumns_eq_nil_iff {declared observed : List Column} :
    droppedColumns declared observed = [] ↔
      ∀ name ∈ observed.map Column.name, name ∈ declared.map Column.name := by
  simp only [droppedColumns, List.filter_eq_nil_iff, decide_not, Bool.not_eq_true',
    decide_eq_false_iff_not, not_not]

/-- Once the declared columns that were missing have been added, no column differs. -/
theorem columnsToAdd_append {declared observed columns : List Column}
    (h : columnsToAdd declared observed = .ok columns) :
    columnsToAdd declared (observed ++ columns) = .ok [] := by
  obtain ⟨hdropped, hcolumns⟩ := columnsToAdd_eq_ok_iff.1 h
  rw [droppedColumns_eq_nil_iff] at hdropped
  have hmem : ∀ c, c ∈ columns ↔ c ∈ declared ∧ c.name ∉ observed.map Column.name := by
    simp [hcolumns]
  rw [columnsToAdd_eq_ok_iff, droppedColumns_eq_nil_iff, List.map_append]
  constructor
  · intro name hname
    rcases List.mem_append.1 hname with hname | hname
    · exact hdropped name hname
    · obtain ⟨c, hc, rfl⟩ := List.mem_map.1 hname
      exact List.mem_map_of_mem ((hmem c).1 hc).1
  · refine (List.filter_eq_nil_iff.2 fun c hc => ?_).symm
    by_cases hin : c.name ∈ observed.map Column.name
    · simp [List.mem_append.2 (.inl hin)]
    · have hadded := List.mem_map_of_mem (f := Column.name) ((hmem c).2 ⟨hc, hin⟩)
      simp [List.mem_append.2 (.inr hadded)]

/-! ## Indexes -/

namespace Index

@[simp] theorem sameAs_self (i : Index) : i.sameAs i = true := by
  simp [sameAs]

theorem name_eq_of_sameAs {i j : Index} (h : i.sameAs j = true) : i.name = j.name := by
  simp only [sameAs, Bool.and_eq_true, decide_eq_true_eq] at h
  exact h.1.1

/-- Indexes are the same by name, by columns and by the set of columns that they cover. -/
theorem sameAs_iff {i j : Index} : i.sameAs j = true ↔
    i.name = j.name ∧ i.columns = j.columns ∧ ∀ column, column ∈ i.cover ↔ column ∈ j.cover := by
  simp only [sameAs, Bool.and_eq_true, decide_eq_true_eq, sameElements_iff, and_assoc]

theorem sameAs_symm {i j : Index} (h : i.sameAs j = true) : j.sameAs i = true := by
  obtain ⟨hname, hcolumns, hcover⟩ := sameAs_iff.1 h
  exact sameAs_iff.2 ⟨hname.symm, hcolumns.symm, fun column => (hcover column).symm⟩

theorem sameAs_trans {i j k : Index} (hij : i.sameAs j = true) (hjk : j.sameAs k = true) :
    i.sameAs k = true := by
  obtain ⟨hname, hcolumns, hcover⟩ := sameAs_iff.1 hij
  obtain ⟨hname', hcolumns', hcover'⟩ := sameAs_iff.1 hjk
  exact sameAs_iff.2 ⟨hname.trans hname', hcolumns.trans hcolumns',
    fun column => (hcover column).trans (hcover' column)⟩

/-- Among indexes of distinct names, an index is there if one of them is the same. -/
theorem isAmong_iff {i : Index} {indexes : List Index} (h : (indexes.map Index.name).Nodup) :
    i.isAmong indexes = true ↔ ∃ j ∈ indexes, i.sameAs j = true :=
  any_lastNamed?_iff h fun _ hj => (name_eq_of_sameAs hj).symm

end Index

section Indexes

variable {declared observed : List Index}

/-- The indexes to drop are those of undeclared names. -/
theorem mem_drop_indexDifference {name : String} :
    name ∈ (indexDifference declared observed).drop ↔
      name ∈ observed.map Index.name ∧ name ∉ declared.map Index.name := by
  rw [indexDifference, List.mem_filter, decide_eq_true_eq]

/-- The indexes to add are the declared ones that are the same as none that is there. -/
theorem mem_add_indexDifference (ho : (observed.map Index.name).Nodup) {i : Index} :
    i ∈ (indexDifference declared observed).add ↔
      i ∈ declared ∧ ∀ o ∈ observed, i.sameAs o = false := by
  rw [indexDifference, List.mem_filter, Bool.not_eq_true', ← Bool.not_eq_true, Index.isAmong_iff ho]
  simp only [not_exists, not_and, Bool.not_eq_true]

end Indexes

/-- Once the observed indexes have been replaced, no index differs. -/
theorem indexDifference_replaced {declared observed : List Index}
    (hd : (declared.map Index.name).Nodup) (ho : (observed.map Index.name).Nodup) :
    indexDifference declared (replaced Index.sameAs declared observed) = ⟨[], []⟩ := by
  have hnodup := nodup_replaced hd ho fun _ _ => Index.name_eq_of_sameAs
  rw [indexDifference, IndexDifference.mk.injEq, List.filter_eq_nil_iff, List.filter_eq_nil_iff]
  constructor
  · intro i hi
    have := (Index.isAmong_iff hnodup).2 (exists_same_of_mem_declared Index.sameAs_self hi)
    simp [this]
  · intro name hname
    obtain ⟨r, hr, rfl⟩ := List.mem_map.1 hname
    obtain ⟨i, hi, hir⟩ := exists_same_of_mem_replaced Index.sameAs_self hr
    have : r.name ∈ declared.map Index.name :=
      Index.name_eq_of_sameAs hir ▸ List.mem_map_of_mem hi
    simpa using this

/-! ## Changefeeds -/

namespace Changefeed

@[simp] theorem sameAs_self (f : Changefeed) : f.sameAs f = true := by
  simp [sameAs]

theorem sameAs_comm (f g : Changefeed) : f.sameAs g = g.sameAs f := by
  simp only [sameAs, eq_comm]

theorem name_eq_of_sameAs {f g : Changefeed} (h : f.sameAs g = true) : f.name = g.name := by
  simp only [sameAs, Bool.and_eq_true, decide_eq_true_eq] at h
  exact h.1.1.1.1

theorem sameAs_iff {f g : Changefeed} : f.sameAs g = true ↔
    f.name = g.name ∧ f.mode = g.mode ∧ f.format = g.format ∧
      f.virtualTimestamps = g.virtualTimestamps ∧ f.retention = g.retention := by
  simp only [sameAs, Bool.and_eq_true, decide_eq_true_eq, and_assoc]

theorem sameAs_trans {f g h : Changefeed} (hfg : f.sameAs g = true) (hgh : g.sameAs h = true) :
    f.sameAs h = true := by
  rw [sameAs_iff] at hfg hgh ⊢
  exact ⟨hfg.1.trans hgh.1, hfg.2.1.trans hgh.2.1, hfg.2.2.1.trans hgh.2.2.1,
    hfg.2.2.2.1.trans hgh.2.2.2.1, hfg.2.2.2.2.trans hgh.2.2.2.2⟩

theorem isAmong_iff {f : Changefeed} {feeds : List Changefeed}
    (h : (feeds.map Changefeed.name).Nodup) :
    f.isAmong feeds = true ↔ ∃ g ∈ feeds, f.sameAs g = true :=
  any_lastNamed?_iff h fun _ hg => (name_eq_of_sameAs hg).symm

end Changefeed

section Changefeeds

variable {declared observed : List Changefeed}

/-- The changefeeds to drop are those that are the same as no declared one. -/
theorem mem_drop_changefeedDifference (hd : (declared.map Changefeed.name).Nodup) {name : String} :
    name ∈ (changefeedDifference declared observed).drop ↔
      ∃ o ∈ observed, (∀ f ∈ declared, f.sameAs o = false) ∧ o.name = name := by
  simp only [changefeedDifference, List.mem_map, List.mem_filter, Bool.not_eq_true',
    ← Bool.not_eq_true, Changefeed.isAmong_iff hd, not_exists, not_and, and_assoc,
    Changefeed.sameAs_comm]

/-- The changefeeds to add are the declared ones that are the same as none that is there. -/
theorem mem_add_changefeedDifference (ho : (observed.map Changefeed.name).Nodup) {f : Changefeed} :
    f ∈ (changefeedDifference declared observed).add ↔
      f ∈ declared ∧ ∀ o ∈ observed, f.sameAs o = false := by
  rw [changefeedDifference, List.mem_filter, Bool.not_eq_true', ← Bool.not_eq_true,
    Changefeed.isAmong_iff ho]
  simp only [not_exists, not_and, Bool.not_eq_true]

end Changefeeds

/-- Once the observed changefeeds have been replaced, no changefeed differs. -/
theorem changefeedDifference_replaced {declared observed : List Changefeed}
    (hd : (declared.map Changefeed.name).Nodup) (ho : (observed.map Changefeed.name).Nodup) :
    changefeedDifference declared (replaced Changefeed.sameAs declared observed) = ⟨[], []⟩ := by
  have hnodup := nodup_replaced hd ho fun _ _ => Changefeed.name_eq_of_sameAs
  rw [changefeedDifference, ChangefeedDifference.mk.injEq, List.map_eq_nil_iff,
    List.filter_eq_nil_iff, List.filter_eq_nil_iff]
  constructor
  · intro f hf
    have := (Changefeed.isAmong_iff hnodup).2
      (exists_same_of_mem_declared Changefeed.sameAs_self hf)
    simp [this]
  · intro r hr
    obtain ⟨f, hf, hfr⟩ := exists_same_of_mem_replaced Changefeed.sameAs_self hr
    have := (Changefeed.isAmong_iff hd).2 ⟨f, hf, Changefeed.sameAs_comm f r ▸ hfr⟩
    simp [this]

/-! ## Settings -/

section Changed

variable {β : Type} [DecidableEq β] {declared old : Option β}

/-- A value that has been overwritten where it differed does not differ any more. -/
@[simp] theorem changed?_orKeep :
    changed? declared (orKeep (changed? declared old) old) = none := by
  cases declared with
  | none => rfl
  | some a =>
    by_cases h : old = some a
    · simp [changed?, orKeep, h, Option.filter_some]
    · simp [changed?, orKeep, h]

end Changed

namespace Partitioning

/-- A partitioning in which nothing is set changes nothing. -/
theorem overwrite_of_isEmpty {p : Partitioning} (h : p.isEmpty = true) (old : Partitioning) :
    p.overwrite old = old := by
  simp only [isEmpty, Bool.and_eq_true, Option.isNone_iff_eq_none] at h
  obtain ⟨⟨⟨⟨⟨⟨h1, h2⟩, h3⟩, h4⟩, h5⟩, h6⟩, h7⟩ := h
  simp [overwrite, orKeep, h1, h2, h3, h4, h5, h6, h7]

/-- Once the changes are made there are none. -/
theorem changedPartitioning_overwrite (p old : Partitioning) :
    (changedPartitioning p ((changedPartitioning p old).overwrite old)).isEmpty = true := by
  simp [changedPartitioning, overwrite, isEmpty]

end Partitioning

theorem Table.overwriteSettings_of_isEmpty {s : TableSettings} (h : s.isEmpty = true) (t : Table) :
    t.overwriteSettings s = t := by
  simp only [TableSettings.isEmpty, Bool.and_eq_true, Option.isNone_iff_eq_none] at h
  obtain ⟨⟨h1, h2⟩, h3⟩ := h
  simp [overwriteSettings, orKeep, h1, h2, h3]

namespace Table

@[simp] theorem settings_ttl (t : Table) : t.settings.ttl = t.ttl :=
  rfl

@[simp] theorem settings_partitioning (t : Table) : t.settings.partitioning = t.partitioning :=
  rfl

@[simp] theorem settings_replication (t : Table) : t.settings.replication = t.replication :=
  rfl

end Table

variable (declared : TableSettings) (t : Table)

/-- The partitioning of a table once the fields that differ have been overwritten. -/
theorem getD_partitioning_overwriteSettings {p : Partitioning}
    (hp : declared.partitioning = some p) :
    (t.overwriteSettings (settingsDifference declared t.settings).set).partitioning.getD {} =
      (changedPartitioning p (t.partitioning.getD {})).overwrite (t.partitioning.getD {}) := by
  simp only [Table.overwriteSettings, settingsDifference, Table.settings_partitioning, hp,
    Option.map_some, Option.filter_some]
  by_cases h : (changedPartitioning p (t.partitioning.getD {})).isEmpty = true
  · simp [h, Partitioning.overwrite_of_isEmpty h]
  · simp [h]

/-- The read replicas of a table once they have been overwritten if they differ. -/
theorem readReplicas_overwriteSettings :
    (t.overwriteSettings (settingsDifference declared t.settings).set).replication.bind
        Replication.readReplicas =
      orKeep (changed? (declared.replication.bind Replication.readReplicas)
        (t.replication.bind Replication.readReplicas))
        (t.replication.bind Replication.readReplicas) := by
  simp only [Table.overwriteSettings, settingsDifference, Table.settings_replication]
  cases h : changed? (declared.replication.bind Replication.readReplicas)
      (t.replication.bind Replication.readReplicas) with
  | none => simp [orKeep]
  | some replicas => simp [orKeep, Replication.overwrite]

/-- Once the settings that differ have been overwritten, there are none to set. -/
theorem set_settingsDifference_overwriteSettings :
    (settingsDifference declared
      (t.overwriteSettings (settingsDifference declared t.settings).set).settings).set = {} := by
  rw [settingsDifference, TableSettings.mk.injEq]
  refine ⟨?_, ?_, ?_⟩
  · exact changed?_orKeep
  · cases hp : declared.partitioning with
    | none => rfl
    | some p =>
      have := Partitioning.changedPartitioning_overwrite p (t.partitioning.getD {})
      rw [Table.settings_partitioning, getD_partitioning_overwriteSettings declared t hp]
      simp [Option.filter_some, this]
  · rw [Table.settings_replication, readReplicas_overwriteSettings, changed?_orKeep,
      Option.map_none]

/-- The table once a difference of settings has been carried out. -/
def Table.settle (t : Table) (d : SettingsDifference) : Table :=
  if d.resetTtl then { t.overwriteSettings d.set with ttl := none } else t.overwriteSettings d.set

/-- Once the difference of its settings has been carried out, no setting differs. -/
theorem settingsDifference_settle :
    settingsDifference declared (t.settle (settingsDifference declared t.settings)).settings =
      ⟨{}, false⟩ := by
  have hset := set_settingsDifference_overwriteSettings declared t
  rw [SettingsDifference.mk.injEq]
  unfold Table.settle
  split
  · rename_i hreset
    -- an expiry is only removed where none is declared, so there is none to set
    have hnone : declared.ttl = none := by
      simp only [settingsDifference, Bool.and_eq_true, Option.isNone_iff_eq_none] at hreset
      exact hreset.1
    refine ⟨?_, by simp [settingsDifference]⟩
    rw [settingsDifference, TableSettings.mk.injEq] at hset ⊢
    exact ⟨by simp [hnone, changed?], hset.2⟩
  · rename_i hkeep
    refine ⟨hset, ?_⟩
    cases hd : declared.ttl with
    | some ttl => simp [settingsDifference, hd]
    | none =>
      simp only [settingsDifference, Table.settings_ttl, hd, Option.isNone_none, Bool.true_and,
        Bool.not_eq_true, Option.isSome_eq_false_iff, Option.isNone_iff_eq_none] at hkeep
      simp [settingsDifference, Table.overwriteSettings, hd, hkeep, changed?, orKeep]

end SchemaPlan
