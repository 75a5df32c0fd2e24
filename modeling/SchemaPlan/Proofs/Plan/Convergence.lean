import SchemaPlan.Proofs.Plan.TableRun

/-!
# Plans for tables converge

`tableOperations_afterAll` : once the operations of a plan have been made, in order, there is
nothing left to plan. The state after the plan is the one of `afterAll_tableOperations`, and in it
every part of the table is one that does not differ from the declaration.
-/

namespace SchemaPlan

namespace Table

variable (d : SettingsDifference) (t : Table)

/-! ## What settings leave alone -/

@[simp] theorem settle_columns : (t.settle d).columns = t.columns := by
  unfold settle
  split
  · rfl
  · rfl

@[simp] theorem settle_indexes : (t.settle d).indexes = t.indexes := by
  unfold settle
  split
  · rfl
  · rfl

@[simp] theorem settle_changefeeds : (t.settle d).changefeeds = t.changefeeds := by
  unfold settle
  split
  · rfl
  · rfl

end Table

/-! ## Convergence -/

/-- A declaration that equals an observed table in every part that is compared needs no
operation. -/
theorem tableOperations_eq_ok_nil {options : PlanOptions} {declared observed : Table}
    (hcolumns : columnsToAdd declared.columns observed.columns = .ok [])
    (hindexes : indexDifference declared.indexes observed.indexes = ⟨[], []⟩)
    (hfeeds : changefeedDifference declared.changefeeds observed.changefeeds = ⟨[], []⟩)
    (hsettings : settingsDifference declared.settings observed.settings = ⟨{}, false⟩) :
    tableOperations options declared observed = .ok [] := by
  refine tableOperations_eq_ok_iff.2 ⟨[], hcolumns, ?_⟩
  rw [hindexes, hfeeds, hsettings]
  simp [indexOperations, changedIndexes, changefeedOperations, settingsOperations,
    TableSettings.isEmpty]

/-- Planning again after the operations of a plan have been made in order gives nothing to do. -/
theorem tableOperations_afterAll {declared observed : Table} {operations : List Operation}
    (hd : declared.DistinctNames) (ho : observed.DistinctNames)
    (h : tableOperations {} declared observed = .ok operations) :
    tableOperations {} declared (observed.afterAll operations) = .ok [] := by
  obtain ⟨columns, hcolumns, hafter⟩ := afterAll_tableOperations hd ho h
  rw [hafter]
  apply tableOperations_eq_ok_nil
  · rw [Table.settle_columns]
    exact columnsToAdd_append hcolumns
  · rw [Table.settle_indexes]
    exact indexDifference_replaced hd.indexes ho.indexes
  · rw [Table.settle_changefeeds]
    exact changefeedDifference_replaced hd.changefeeds ho.changefeeds
  · exact settingsDifference_settle declared.settings (declared.restructured observed columns)

/-- Once the table of series is as declared, nothing is left to do. -/
theorem tableOperations_afterAll_series :
    tableOperations {} seriesDeclared seriesObserved = .ok seriesOperations ∧
      tableOperations {} seriesDeclared (seriesObserved.afterAll seriesOperations) = .ok [] :=
  ⟨tableOperations_series, tableOperations_afterAll distinctNames_seriesDeclared
    distinctNames_seriesObserved tableOperations_series⟩

end SchemaPlan
