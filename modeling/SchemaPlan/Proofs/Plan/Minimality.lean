import SchemaPlan.Operation.Omission
import SchemaPlan.Proofs.Plan.Exchange
import SchemaPlan.Proofs.Plan.Order
import SchemaPlan.Proofs.Plan.UpToDate
import SchemaPlan.Proofs.Table.Validation

/-!
# No operation of a plan for a table can be left out

A plan is cut at the operation that is left out (`PlanCut`), and what is missed then is shown for
each kind of operation. Without an addition the end lacks a name. A name that is not dropped is
still there when it is to be added again, or else in the end. Settings that are not set and an
expiry that is not removed are those that are observed. `tableOperations_minimal` puts this
together, and says that the settings of a plan are changes.
-/

namespace SchemaPlan

variable {declared observed t : Table} {operation : Operation}
  {operations before after : List Operation} {name : String}

/-! ## States from which nothing is left to plan -/

/-- Where nothing is left to do, the names of the indexes are the declared ones. -/
theorem mem_indexes_iff_of_settled (h : tableOperations {} declared t = .ok []) :
    name ∈ declared.indexes.map Index.name ↔ name ∈ t.indexes.map Index.name := by
  have hnone := (tableOperations_eq_ok_nil_iff.1 h).2.1
  constructor
  · intro hname
    obtain ⟨i, hi, rfl⟩ := List.mem_map.1 hname
    have hadd := (IndexDifference.mk.inj hnone).1
    have hamong := List.filter_eq_nil_iff.1 hadd i hi
    simp only [Index.isAmong, Bool.not_eq_true', Bool.not_eq_false, Option.any_eq_true] at hamong
    obtain ⟨o, ho, -⟩ := hamong
    exact name_of_lastNamed? ho ▸ List.mem_map_of_mem (mem_of_lastNamed? ho)
  · intro hname
    by_contra hundeclared
    have hdrop := mem_drop_indexDifference.2 ⟨hname, hundeclared⟩
    rw [hnone] at hdrop
    exact List.not_mem_nil hdrop

theorem mem_changefeeds_iff_of_settled (h : tableOperations {} declared t = .ok []) :
    name ∈ declared.changefeeds.map Changefeed.name ↔
      name ∈ t.changefeeds.map Changefeed.name := by
  have hnone := ChangefeedDifference.mk.inj (tableOperations_eq_ok_nil_iff.1 h).2.2.1
  -- entries of either list are among the other list
  have hamong : ∀ {l m : List Changefeed}, (l.filter fun f => !f.isAmong m) = [] →
      name ∈ l.map Changefeed.name → name ∈ m.map Changefeed.name := by
    intro l m hnil hname
    obtain ⟨f, hf, rfl⟩ := List.mem_map.1 hname
    have hf := List.filter_eq_nil_iff.1 hnil f hf
    simp only [Changefeed.isAmong, Bool.not_eq_true', Bool.not_eq_false, Option.any_eq_true] at hf
    obtain ⟨g, hg, -⟩ := hf
    exact name_of_lastNamed? hg ▸ List.mem_map_of_mem (mem_of_lastNamed? hg)
  exact ⟨hamong hnone.1, hamong (List.map_eq_nil_iff.1 hnone.2)⟩

/-! ## Additions and drops that a plan contains -/

section Members

variable (h : tableOperations {} declared observed = .ok operations)

include h

theorem addIndex_mem_tableOperations {i : Index}
    (hi : i ∈ (indexDifference declared.indexes observed.indexes).add) :
    .addIndex declared.path i ∈ operations := by
  obtain ⟨columns, -, rfl⟩ := tableOperations_eq_ok_iff.1 h
  simp [indexOperations, hi]

/-- A changed index is dropped as well as added. -/
theorem dropIndex_mem_tableOperations {i : Index}
    (hi : i ∈ (indexDifference declared.indexes observed.indexes).add)
    (hobserved : i.name ∈ observed.indexes.map Index.name) :
    .dropIndex declared.path i.name ∈ operations := by
  obtain ⟨columns, -, rfl⟩ := tableOperations_eq_ok_iff.1 h
  have hchanged := mem_changedIndexes.2 ⟨List.mem_map_of_mem hi, hobserved⟩
  simp [indexOperations, hchanged]

theorem addChangefeed_mem_tableOperations {f : Changefeed}
    (hf : f ∈ (changefeedDifference declared.changefeeds observed.changefeeds).add) :
    .addChangefeed declared.path f ∈ operations := by
  obtain ⟨columns, -, rfl⟩ := tableOperations_eq_ok_iff.1 h
  simp [changefeedOperations, hf]

theorem dropChangefeed_mem_tableOperations
    (hname : name ∈ (changefeedDifference declared.changefeeds observed.changefeeds).drop) :
    .dropChangefeed declared.path name ∈ operations := by
  obtain ⟨columns, -, rfl⟩ := tableOperations_eq_ok_iff.1 h
  simp [changefeedOperations, hname]

/-- Settings are set only if there are some to set. -/
theorem isEmpty_of_mem_tableOperations {path : String} {set : TableSettings}
    (hmem : .setTableSettings path set ∈ operations) :
    set = (settingsDifference declared.settings observed.settings).set ∧ set.isEmpty = false := by
  obtain ⟨columns, -, rfl⟩ := tableOperations_eq_ok_iff.1 h
  simp only [indexOperations, changefeedOperations, settingsOperations, if_true, List.mem_append,
    List.mem_map, reduceCtorEq, and_false, exists_false, false_or, List.mem_ite_nil_left,
    List.mem_ite_nil_right, List.mem_singleton, or_false, Operation.setTableSettings.injEq] at hmem
  obtain ⟨hne, -, rfl⟩ := hmem
  exact ⟨rfl, Bool.eq_false_iff.2 hne⟩

end Members

/-! ## A plan without one of its operations -/

/-- A plan for a table, cut at the operation that is to be left out. -/
structure PlanCut (declared observed : Table) (before : List Operation) (operation : Operation)
    (after : List Operation) : Prop where
  columns : declared.columnNames.Nodup
  declaredNames : declared.DistinctNames
  observedNames : observed.DistinctNames
  plan : tableOperations {} declared observed = .ok (before ++ operation :: after)

namespace PlanCut

theorem mem_plan {o : Operation} (hmem : o ∈ before ++ after) :
    o ∈ before ++ operation :: after := by
  rcases List.mem_append.1 hmem with hmem | hmem
  · exact List.mem_append_left _ hmem
  · exact List.mem_append_right _ (List.mem_cons_of_mem _ hmem)

theorem mem_rest {o : Operation} (hmem : o ∈ before ++ operation :: after) (hne : o ≠ operation) :
    o ∈ before ++ after := by
  simp only [List.mem_append, List.mem_cons, hne, false_or] at hmem ⊢
  exact hmem

theorem mem_until {mid rest : List Operation} {o later : Operation} (hmem : o ∈ before ++ mid) :
    o ∈ before ++ (mid ++ later :: rest) :=
  ((List.sublist_append_left mid _).append_left before).subset hmem

section Any

variable (cut : PlanCut declared observed before operation after)

include cut

/-- A plan is in the order of its stages. -/
theorem ordered : (before ++ operation :: after).Pairwise Operation.Precedes :=
  pairwise_precedes_tableOperations cut.columns cut.declaredNames cut.observedNames cut.plan

/-- No operation stands in a plan twice. -/
theorem nodup : (before ++ operation :: after).Nodup :=
  cut.ordered.imp And.right

/-- The operation that is left out does not stand elsewhere in the plan. -/
theorem operation_not_mem : operation ∉ before ++ after :=
  (List.nodup_cons.1 (List.nodup_middle.1 cut.nodup)).1

theorem planned_operation : Planned {} declared observed operation :=
  planned_of_mem_tableOperations cut.plan (List.mem_append_right _ List.mem_cons_self)

theorem planned {o : Operation} (hmem : o ∈ before ++ after) : Planned {} declared observed o :=
  planned_of_mem_tableOperations cut.plan (mem_plan hmem)

/-- What belongs to a later stage comes after the operation. -/
theorem exists_later {later : Operation} (hmem : later ∈ before ++ operation :: after)
    (hstage : operation.stage < later.stage) : ∃ mid rest, after = mid ++ later :: rest := by
  have hbefore : later ∉ before := fun hin => by
    have hle := ((List.pairwise_append.1 cut.ordered).2.2 later hin _ List.mem_cons_self).1
    exact absurd hstage (Nat.not_lt.2 hle)
  have hne : later ≠ operation := by
    rintro rfl
    exact Nat.lt_irrefl _ hstage
  have hcons := (List.mem_append.1 hmem).resolve_left hbefore
  exact List.append_of_mem ((List.mem_cons.1 hcons).resolve_left hne)

/-- The operations add no column that is not declared. -/
theorem mem_declared_of_mem_columnNames
    (hname : name ∈ (observed.afterAll (before ++ after)).columnNames) :
    name ∈ declared.columnNames := by
  obtain ⟨columns, hadded, -⟩ := tableOperations_eq_ok_iff.1 cut.plan
  have hobserved := droppedColumns_eq_nil_iff.1 (columnsToAdd_eq_ok_iff.1 hadded).1
  refine afterAll_keeps (P := fun t => ∀ name ∈ t.columnNames, name ∈ declared.columnNames)
    (fun o ho t ht name hname => ?_) hobserved name hname
  cases cut.planned ho with
  | addColumn hc =>
    simp only [Operation.onTable, Table.addColumn, Table.columnNames, List.map_append,
      List.mem_append, List.map_singleton, List.mem_singleton] at hname
    rcases hname with hname | rfl
    · exact ht name hname
    · exact List.mem_map_of_mem hc
  | _ => exact ht name hname

/-- If the end is not a state from which nothing is left to plan, there is a plan that does
something. -/
theorem misses_of_not_settled
    (hne : tableOperations {} declared (observed.afterAll (before ++ after)) ≠ .ok []) :
    declared.Misses observed before after := by
  have hcolumns := columnsToAdd_eq_ok_iff.2
    ⟨droppedColumns_eq_nil_iff.2 fun _ => cut.mem_declared_of_mem_columnNames, rfl⟩
  obtain ⟨remaining, hplan⟩ : ∃ remaining,
      tableOperations {} declared (observed.afterAll (before ++ after)) = .ok remaining :=
    ⟨_, tableOperations_eq_ok_iff.2 ⟨_, hcolumns, rfl⟩⟩
  exact .unsettled hplan fun hnil => hne (hnil ▸ hplan)

end Any

/-! ## Additions that are left out -/

/-- Without the addition of a column the table lacks it. -/
theorem misses_addColumn {path : String} {c : Column}
    (cut : PlanCut declared observed before (.addColumn path c) after) :
    declared.Misses observed before after := by
  cases cut.planned_operation with
  | addColumn hc hnew =>
    refine cut.misses_of_not_settled fun hsettled => ?_
    have hthere := (columnsToAdd_eq_ok_nil_iff.1 (tableOperations_eq_ok_nil_iff.1 hsettled).1
      c.name).1 (List.mem_map_of_mem hc)
    refine afterAll_keeps (P := fun t => c.name ∉ t.columnNames) (fun o ho t ht => ?_) hnew hthere
    cases cut.planned ho with
    | @addColumn b hb =>
      simp only [Operation.onTable, Table.addColumn, Table.columnNames, List.map_append,
        List.mem_append, List.map_singleton, List.mem_singleton]
      rintro (hin | hname)
      · exact ht hin
      · -- the only declared column of the name is the one that is left out
        have hbc : b = c := List.inj_on_of_nodup_map cut.columns hb hc hname.symm
        exact cut.operation_not_mem (hbc ▸ ho)
    | _ => exact ht

/-- Without the addition of an index the table lacks it. -/
theorem misses_addIndex {path : String} {i : Index}
    (cut : PlanCut declared observed before (.addIndex path i) after) :
    declared.Misses observed before after := by
  cases cut.planned_operation with
  | addIndex hi =>
    have hdeclared := ((mem_add_indexDifference cut.observedNames.indexes).1 hi).1
    refine cut.misses_of_not_settled fun hsettled => ?_
    have hthere := (mem_indexes_iff_of_settled hsettled).1 (List.mem_map_of_mem hdeclared)
    refine (exchange_indexes cut.declaredNames fun _ => cut.planned).absent hi
      cut.operation_not_mem (fun hobserved => ?_) hthere
    exact mem_rest (dropIndex_mem_tableOperations cut.plan hi hobserved) (by simp)

theorem misses_addChangefeed {path : String} {f : Changefeed}
    (cut : PlanCut declared observed before (.addChangefeed path f) after) :
    declared.Misses observed before after := by
  cases cut.planned_operation with
  | addChangefeed hf =>
    obtain ⟨hdeclared, hnone⟩ := (mem_add_changefeedDifference cut.observedNames.changefeeds).1 hf
    refine cut.misses_of_not_settled fun hsettled => ?_
    have hthere := (mem_changefeeds_iff_of_settled hsettled).1 (List.mem_map_of_mem hdeclared)
    refine (exchange_changefeeds cut.declaredNames fun _ => cut.planned).absent hf
      cut.operation_not_mem (fun hobserved => ?_) hthere
    obtain ⟨o, hmem, hname⟩ := List.mem_map.1 hobserved
    -- the only declared changefeed of the name is `f`, which is not the observed one
    have hdropped := (mem_drop_changefeedDifference cut.declaredNames.changefeeds).2
      ⟨o, hmem, fun g hg => Bool.eq_false_iff.2 fun hsame => ?_, hname⟩
    · exact mem_rest (dropChangefeed_mem_tableOperations cut.plan hdropped) (by simp)
    · have hgf : g = f := List.inj_on_of_nodup_map cut.declaredNames.changefeeds hg hdeclared
        ((Changefeed.name_eq_of_sameAs hsame).trans hname)
      exact Bool.false_ne_true ((hnone o hmem).symm.trans (hgf ▸ hsame))

/-! ## Drops that are left out -/

/-- A name that is not dropped is still there when it is to be added again. -/
theorem there_at_addition {α : Type} {nameOf : α → String} {part : Table → List α}
    {add : α → Operation} {drop : String → Operation} {adds : List α} {a : α}
    {mid rest : List Operation}
    (cut : PlanCut declared observed before (drop (nameOf a)) (mid ++ add a :: rest))
    (h : Exchange nameOf part add drop adds (before ++ mid)) (ha : a ∈ adds)
    (hobserved : nameOf a ∈ (part observed).map nameOf) :
    nameOf a ∈ (part (observed.afterAll (before ++ mid))).map nameOf := by
  have hnodup : (before ++ mid ++ add a :: rest).Nodup := by
    rw [List.append_assoc]
    exact (List.nodup_cons.1 (List.nodup_middle.1 cut.nodup)).2
  refine h.there (fun hin => cut.operation_not_mem (mem_until hin)) (fun b hb hname hin => ?_)
    hobserved
  have hba : b = a := List.inj_on_of_nodup_map h.distinct hb ha hname
  exact (List.nodup_cons.1 (List.nodup_middle.1 hnodup)).1
    (List.mem_append_left rest (hba ▸ hin))

/-- Without the drop of an index it stays, or it is in the way of the one that is added. -/
theorem misses_dropIndex {path : String}
    (cut : PlanCut declared observed before (.dropIndex path name) after) :
    declared.Misses observed before after := by
  cases cut.planned_operation with
  | dropIndex hobserved hundeclared =>
    refine cut.misses_of_not_settled fun hsettled => hundeclared ?_
    refine (mem_indexes_iff_of_settled hsettled).2 ?_
    refine (exchange_indexes cut.declaredNames fun _ => cut.planned).there cut.operation_not_mem
      (fun i hi hname => absurd ?_ hundeclared) hobserved
    exact hname ▸ List.mem_map_of_mem ((mem_add_indexDifference cut.observedNames.indexes).1 hi).1
  | @dropChangedIndex i _ hi hobserved =>
    obtain ⟨mid, rest, rfl⟩ := cut.exists_later (addIndex_mem_tableOperations cut.plan hi)
      (Nat.lt_succ_self 1)
    have hexchange := exchange_indexes cut.declaredNames fun o ho => cut.planned (mem_until ho)
    exact .blocked rfl (.inl (there_at_addition cut hexchange hi hobserved))

theorem misses_dropChangefeed {path : String}
    (cut : PlanCut declared observed before (.dropChangefeed path name) after) :
    declared.Misses observed before after := by
  cases cut.planned_operation with
  | dropChangefeed hname =>
    obtain ⟨o, hmem, hnone, rfl⟩ :=
      (mem_drop_changefeedDifference cut.declaredNames.changefeeds).1 hname
    have hobserved := List.mem_map_of_mem (f := Changefeed.name) hmem
    by_cases hdeclared : o.name ∈ declared.changefeeds.map Changefeed.name
    · obtain ⟨f, hf, hfo⟩ := List.mem_map.1 hdeclared
      -- the only observed changefeed of the name is `o`, which is not the declared one
      have hadded := (mem_add_changefeedDifference cut.observedNames.changefeeds).2
        ⟨hf, fun p hp => Bool.eq_false_iff.2 fun hsame => ?_⟩
      · obtain ⟨mid, rest, rfl⟩ := cut.exists_later
          (addChangefeed_mem_tableOperations cut.plan hadded) (Nat.lt_succ_self 3)
        have hexchange := exchange_changefeeds cut.declaredNames fun o ho =>
          cut.planned (mem_until ho)
        rw [← hfo] at cut hobserved
        exact .blocked rfl (there_at_addition cut hexchange hadded hobserved)
      · have hpo : p = o := List.inj_on_of_nodup_map cut.observedNames.changefeeds hp hmem
          ((Changefeed.name_eq_of_sameAs hsame).symm.trans hfo)
        exact Bool.false_ne_true ((hnone f hf).symm.trans (hpo ▸ hsame))
    · refine cut.misses_of_not_settled fun hsettled => hdeclared ?_
      refine (mem_changefeeds_iff_of_settled hsettled).2 ?_
      refine (exchange_changefeeds cut.declaredNames fun _ => cut.planned).there
        cut.operation_not_mem (fun f hf hfo => absurd ?_ hdeclared) hobserved
      exact hfo ▸ List.mem_map_of_mem
        ((mem_add_changefeedDifference cut.observedNames.changefeeds).1 hf).1

/-! ## Settings that are left out -/

/-- Without the settings something is left to set. -/
theorem misses_setTableSettings {path : String} {set : TableSettings}
    (cut : PlanCut declared observed before (.setTableSettings path set) after) :
    declared.Misses observed before after := by
  obtain ⟨rfl, hset⟩ := isEmpty_of_mem_tableOperations cut.plan
    (List.mem_append_right _ List.mem_cons_self)
  refine cut.misses_of_not_settled fun hsettled => ?_
  have hsame : (settingsDifference declared.settings
      (observed.afterAll (before ++ after)).settings).set =
        (settingsDifference declared.settings observed.settings).set := by
    refine afterAll_eq_of_onTable_eq
      (fun t => (settingsDifference declared.settings t.settings).set) (fun o ho t => ?_) observed
    cases cut.planned ho with
    | setSettings =>
      cases cut.planned_operation with
      | setSettings => exact absurd ho cut.operation_not_mem
    | resetTtl _ hdeclared =>
      simp only [settingsDifference, Table.settings_ttl, hdeclared]
      rfl
    | _ => rfl
  rw [(tableOperations_eq_ok_nil_iff.1 hsettled).2.2.2] at hsame
  rw [← hsame] at hset
  cases hset

/-- Without the reset the time to live stays. -/
theorem misses_resetTtl {path : String}
    (cut : PlanCut declared observed before (.resetTtl path) after) :
    declared.Misses observed before after := by
  cases cut.planned_operation with
  | resetTtl _ hdeclared hobserved =>
    refine cut.misses_of_not_settled fun hsettled => hobserved ?_
    have hsame : (observed.afterAll (before ++ after)).ttl = observed.ttl := by
      refine afterAll_eq_of_onTable_eq Table.ttl (fun o ho t => ?_) observed
      cases cut.planned ho with
      | setSettings => exact orKeep_changed?_of_none hdeclared _ _
      | resetTtl => exact absurd ho cut.operation_not_mem
      | _ => rfl
    have hholds := settingsDifference_eq_nil_iff.1 (tableOperations_eq_ok_nil_iff.1 hsettled).2.2.2
    exact hsame.symm.trans (hholds.ttl.symm.trans hdeclared)

end PlanCut

/-! ## Settings of a plan -/

/-- A value is set only if it is declared and differs from the observed one. -/
theorem changes_changed? {α : Type} [DecidableEq α] (declared observed : Option α) :
    Changes (changed? declared observed) declared observed := by
  intro a ha
  obtain ⟨hdeclared, hobserved⟩ := Option.filter_eq_some_iff.1 ha
  exact ⟨hdeclared, of_decide_eq_true hobserved⟩

theorem changesOnly_changedPartitioning (declared observed : Partitioning) :
    (changedPartitioning declared observed).ChangesOnly declared observed where
  uniformPartitions := rfl
  minPartitions := changes_changed? _ _
  maxPartitions := changes_changed? _ _
  byLoad := changes_changed? _ _
  bySize := changes_changed? _ _
  sizeThreshold := changes_changed? _ _
  splitPoints := rfl

/-- Only declared settings that differ are set. -/
theorem changesOnly_settingsDifference (declared observed : TableSettings) :
    (settingsDifference declared observed).set.ChangesOnly declared observed where
  ttl := changes_changed? _ _
  partitioning p hp := by
    obtain ⟨hmap, hne⟩ := Option.filter_eq_some_iff.1 hp
    obtain ⟨q, hq, rfl⟩ := Option.map_eq_some_iff.1 hmap
    rw [hq, Option.getD_some]
    exact ⟨by simpa using hne, changesOnly_changedPartitioning q _⟩
  replication r hr := by
    obtain ⟨replicas, hreplicas, rfl⟩ := Option.map_eq_some_iff.1 hr
    exact ⟨Option.some_ne_none _, hreplicas ▸ changes_changed? _ _⟩

/-! ## The whole plan -/

/-- Every operation of a plan is missed when it is left out. -/
theorem PlanCut.misses (cut : PlanCut declared observed before operation after) :
    declared.Misses observed before after := by
  cases cut.planned_operation with
  | addColumn => exact cut.misses_addColumn
  | dropIndex => exact cut.misses_dropIndex
  | dropChangedIndex => exact cut.misses_dropIndex
  | addIndex => exact cut.misses_addIndex
  | dropChangefeed => exact cut.misses_dropChangefeed
  | addChangefeed => exact cut.misses_addChangefeed
  | setSettings => exact cut.misses_setTableSettings
  | resetTtl => exact cut.misses_resetTtl

/-- What is blocked cannot be executed. -/
theorem Operation.Blocked.not_executable (h : operation.Blocked t) : ¬operation.Executable t := by
  intro hexecutable
  cases operation with
  | addColumn => exact hexecutable h
  | addIndex =>
    rcases h with h | ⟨column, hc, hmissing⟩
    · exact hexecutable.1 h
    · exact hmissing (hexecutable.2 column hc)
  | addChangefeed => exact hexecutable h
  | _ => exact h

/-- A plan without one of its operations cannot both be executed and leave nothing to plan. -/
theorem Table.Misses.not_settled (h : declared.Misses observed before after)
    (hexecutes : observed.Executes (before ++ after)) :
    tableOperations {} declared (observed.afterAll (before ++ after)) ≠ .ok [] := by
  cases h with
  | blocked hafter hblocked =>
    rw [hafter, ← List.append_assoc] at hexecutes
    exact absurd (executable_of_executes observed hexecutes) hblocked.not_executable
  | unsettled hplan hne => exact fun hsettled => hne (Except.ok.inj (hplan.symm.trans hsettled))

/-- No operation of a plan for an accepted declaration can be left out : without it an operation
that comes later is blocked, or the end is a state from which there is something left to plan. And
the settings of a plan are declared and differ from the observed ones. -/
theorem tableOperations_minimal (hvalid : declared.validate = .ok ())
    (hd : declared.DistinctNames) (ho : observed.DistinctNames)
    (h : tableOperations {} declared observed = .ok operations) :
    (∀ before operation after, operations = before ++ operation :: after →
      declared.Misses observed before after) ∧
    ∀ path settings, .setTableSettings path settings ∈ operations →
      settings.isEmpty = false ∧ settings.ChangesOnly declared.settings observed.settings := by
  constructor
  · rintro before operation after rfl
    exact PlanCut.misses ⟨Table.nodup_columnNames_of_validate hvalid, hd, ho, h⟩
  · intro path settings hmem
    obtain ⟨rfl, hne⟩ := isEmpty_of_mem_tableOperations h hmem
    exact ⟨hne, changesOnly_settingsDifference _ _⟩

/-- The drop of the changed index in the plan for the table of series, and what its settings set. -/
theorem tableOperations_minimal_series :
    seriesDeclared.validate = .ok () ∧
      tableOperations {} seriesDeclared seriesObserved = .ok seriesOperations ∧
      seriesOperations = seriesOperations.take 2 ++ .dropIndex "dir/series" "by_title"
        :: seriesOperations.drop 3 ∧
      seriesDeclared.Misses seriesObserved (seriesOperations.take 2) (seriesOperations.drop 3) ∧
      TableSettings.ChangesOnly { partitioning := some { maxPartitions := some 8 } }
        seriesDeclared.settings seriesObserved.settings := by
  have hminimal := tableOperations_minimal rfl distinctNames_seriesDeclared
    distinctNames_seriesObserved tableOperations_series
  exact ⟨rfl, tableOperations_series, rfl, hminimal.1 _ _ _ rfl,
    (hminimal.2 "dir/series" _ (by decide)).2⟩

end SchemaPlan
