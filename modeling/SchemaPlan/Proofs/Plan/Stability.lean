import SchemaPlan.Proofs.Plan.Convergence

/-!
# Tables planned against themselves

`planTable_self_iff` : an accepted table that is observed as it is declared needs nothing exactly
if its indexes of one name hold the same data and its changefeeds of one name carry the same
records. Columns and settings never differ from themselves, and nothing is ever dropped. Where names
are repeated, the last entry of a name counts on the observed side, so an entry that differs from
it is found to differ (`planTable_twinIndexes`).
-/

namespace SchemaPlan

/-! ## Differences of a part from itself -/

/-- A table lacks no column of its own. -/
theorem columnsToAdd_self (columns : List Column) : columnsToAdd columns columns = .ok [] := by
  rw [columnsToAdd_eq_ok_iff, droppedColumns_eq_nil_iff]
  refine ⟨fun _ h => h, (List.filter_eq_nil_iff.2 fun c hc => ?_).symm⟩
  simpa using ⟨c, hc, rfl⟩

theorem drop_indexDifference_self (indexes : List Index) :
    (indexDifference indexes indexes).drop = [] := by
  refine List.filter_eq_nil_iff.2 fun name hname => ?_
  simpa using hname

/-- No index is added exactly if indexes of one name are the same. -/
theorem add_indexDifference_self_iff {indexes : List Index} :
    (indexDifference indexes indexes).add = [] ↔ Agreeing Index.name Index.sameAs indexes := by
  have hagreeing : Agreeing Index.name Index.sameAs indexes ↔
      ∀ i ∈ indexes, i.isAmong indexes = true :=
    agreeing_iff_any_lastNamed? (fun _ _ => Index.sameAs_symm) fun _ _ _ => Index.sameAs_trans
  simp [hagreeing, indexDifference]

/-- Changefeeds do not differ from themselves exactly if those of one name are the same. -/
theorem changefeedDifference_self_iff {feeds : List Changefeed} :
    changefeedDifference feeds feeds = ⟨[], []⟩ ↔
      Agreeing Changefeed.name Changefeed.sameAs feeds := by
  have hagreeing : Agreeing Changefeed.name Changefeed.sameAs feeds ↔
      ∀ f ∈ feeds, f.isAmong feeds = true :=
    agreeing_iff_any_lastNamed? (fun f g h => Changefeed.sameAs_comm f g ▸ h)
      fun _ _ _ => Changefeed.sameAs_trans
  simp [hagreeing, changefeedDifference]

@[simp] theorem changed?_self {α : Type} [DecidableEq α] (declared : Option α) :
    changed? declared declared = none := by
  cases declared <;> simp [changed?]

/-- A partitioning does not differ from itself. -/
theorem changedPartitioning_self (p : Partitioning) : (changedPartitioning p p).isEmpty = true := by
  simp [changedPartitioning, Partitioning.isEmpty]

theorem settingsDifference_self (s : TableSettings) : settingsDifference s s = ⟨{}, false⟩ := by
  rw [settingsDifference, SettingsDifference.mk.injEq, TableSettings.mk.injEq]
  refine ⟨⟨changed?_self _, ?_, ?_⟩, ?_⟩
  · cases hp : s.partitioning with
    | none => rfl
    | some p => simp [Option.filter_some, changedPartitioning_self]
  · simp
  · cases s.ttl <;> rfl

/-! ## Plans -/

/-- Nothing is done about indexes exactly if none is to be added or dropped. -/
theorem indexOperations_eq_nil_iff {options : PlanOptions} {path : String} {d : IndexDifference}
    {observed : List Index} :
    indexOperations options path d observed = [] ↔ d.add = [] ∧ d.drop = [] := by
  simp only [indexOperations, List.append_eq_nil_iff, List.map_eq_nil_iff]
  constructor
  · rintro ⟨⟨hdrop, -⟩, hadd⟩
    exact ⟨hadd, hdrop⟩
  · rintro ⟨hadd, hdrop⟩
    simp [hadd, hdrop, changedIndexes]

theorem changefeedOperations_eq_nil_iff {path : String} {d : ChangefeedDifference} :
    changefeedOperations path d = [] ↔ d = ⟨[], []⟩ := by
  obtain ⟨add, drop⟩ := d
  simp [changefeedOperations, and_comm]

/-- A plan says that there is nothing to do exactly if there is no operation. -/
theorem ofOperations_eq_upToDate_iff {operations : List Operation} :
    Plan.ofOperations operations = .ok .upToDate ↔ operations = [] := by
  cases operations with
  | nil => simp [Plan.ofOperations]
  | cons operation operations =>
    simp [Plan.ofOperations, map_eq_ok_iff]

/-- The operations for a table that is observed as it is declared. -/
theorem tableOperations_self_eq_nil_iff {options : PlanOptions} {t : Table} :
    tableOperations options t t = .ok [] ↔
      Agreeing Index.name Index.sameAs t.indexes ∧
        Agreeing Changefeed.name Changefeed.sameAs t.changefeeds := by
  have hsettings : settingsOperations options t.path ⟨{}, false⟩ = [] := by
    simp [settingsOperations, TableSettings.isEmpty]
  rw [← add_indexDifference_self_iff, ← changefeedDifference_self_iff, tableOperations_eq_ok_iff]
  simp only [columnsToAdd_self, settingsDifference_self, hsettings, Except.ok.injEq,
    List.append_nil, List.nil_eq, List.append_eq_nil_iff, indexOperations_eq_nil_iff,
    changefeedOperations_eq_nil_iff, drop_indexDifference_self, and_true, exists_eq_left,
    List.map_nil, true_and]

/-- A plan for a valid table finds it up to date exactly if there is nothing to do. -/
theorem planTable_some_eq_upToDate_iff {options : PlanOptions} {declared observed : Table}
    (h : declared.validate = .ok ()) : planTable options declared (some observed) = .ok .upToDate ↔
      tableOperations options declared observed = .ok [] := by
  simp only [planTable, h, bind_eq_ok_iff, ofOperations_eq_upToDate_iff]
  simp

/-- A table differs from itself in no column and no setting, and in nothing that is to be dropped.
It has an index or a changefeed to add only if two of one name are not the same, and if there are
none such and the table is accepted, its plan against itself is that there is nothing to do. -/
theorem planTable_self_iff {t : Table} (h : t.validate = .ok ()) (options : PlanOptions) :
    (∃ d, tableDifference t t = .ok d ∧ d.columns = [] ∧ d.indexes.drop = [] ∧
      (d.isEmpty = true ↔ Agreeing Index.name Index.sameAs t.indexes)) ∧
    (changefeedDifference t.changefeeds t.changefeeds = ⟨[], []⟩ ↔
      Agreeing Changefeed.name Changefeed.sameAs t.changefeeds) ∧
    settingsDifference t.settings t.settings = ⟨{}, false⟩ ∧
    (planTable options t (some t) = .ok .upToDate ↔
      Agreeing Index.name Index.sameAs t.indexes ∧
        Agreeing Changefeed.name Changefeed.sameAs t.changefeeds) := by
  refine ⟨⟨⟨[], indexDifference t.indexes t.indexes⟩, ?_, rfl, drop_indexDifference_self _, ?_⟩,
    changefeedDifference_self_iff, settingsDifference_self _, ?_⟩
  · simp only [tableDifference, bind_eq_ok_iff, pure_eq_ok_iff]
    exact ⟨[], columnsToAdd_self _, rfl⟩
  · rw [← add_indexDifference_self_iff]
    simp [TableDifference.isEmpty, drop_indexDifference_self]
  · rw [planTable_some_eq_upToDate_iff h, tableOperations_self_eq_nil_iff]

theorem planTable_self_series :
    seriesObserved.validate = .ok () ∧
      changefeedDifference seriesObserved.changefeeds seriesObserved.changefeeds = ⟨[], []⟩ ∧
      planTable {} seriesObserved (some seriesObserved) = .ok .upToDate := by
  obtain ⟨-, hfeeds, -, hplan⟩ := planTable_self_iff (t := seriesObserved) rfl {}
  have hindexes : Agreeing Index.name Index.sameAs seriesObserved.indexes :=
    agreeing_of_nodup Index.sameAs_self distinctNames_seriesObserved.indexes
  have hagree : Agreeing Changefeed.name Changefeed.sameAs seriesObserved.changefeeds :=
    agreeing_of_nodup Changefeed.sameAs_self distinctNames_seriesObserved.changefeeds
  exact ⟨rfl, hfeeds.2 hagree, hplan.2 ⟨hindexes, hagree⟩⟩

/-- A table whose two indexes have one name but different columns, which is accepted. -/
def twinIndexes : Table where
  path := "t"
  columns := [{ name := "id", type := "Uint64" }, { name := "title", type := "Utf8" }]
  primaryKey := ["id"]
  indexes := [{ name := "i", columns := ["id"] }, { name := "i", columns := ["title"] }]

set_option maxRecDepth 4000 in
/-- The first of two indexes of one name is dropped and added again, time after time. -/
theorem planTable_twinIndexes :
    twinIndexes.validate = .ok () ∧
      tableDifference twinIndexes twinIndexes =
        .ok ⟨[], [{ name := "i", columns := ["id"] }], []⟩ ∧
      planTable {} twinIndexes (some twinIndexes) =
        .ok (.alter ["ALTER TABLE `t` DROP INDEX `i`",
          "ALTER TABLE `t` ADD INDEX `i` GLOBAL SYNC ON (`id`)"]) :=
  ⟨rfl, rfl, rfl⟩

end SchemaPlan
