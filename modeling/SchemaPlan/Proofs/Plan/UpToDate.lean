import SchemaPlan.Proofs.Plan.Stability
import SchemaPlan.Table.Agreement

/-!
# When a table is up to date

`planTable_upToDate_iff` : there is nothing to do for an accepted table exactly if the observed
table is as it is declared. Each part of a table is as declared exactly if its difference is empty;
for indexes and changefeeds this takes distinct names, so that an entry of a name is the entry of
the name (`sameNamed_iff`). What is not compared makes no difference (`holdsIn_compared_iff`).
-/

namespace SchemaPlan

/-! ## Entries of the same names -/

section SameNamed

variable {α : Type} {nameOf : α → String} {related : α → α → Prop} {same : α → α → Bool}
  {l m : List α}

/-- Where names are distinct on the observed side, lists match exactly if each declared entry has an
observed partner and no other names are observed. -/
theorem sameNamed_iff (hsame : ∀ a b, same a b = true ↔ nameOf a = nameOf b ∧ related a b)
    (hm : (m.map nameOf).Nodup) : SameNamed nameOf related l m ↔
      (∀ a ∈ l, ∃ b ∈ m, same a b = true) ∧ ∀ name ∈ m.map nameOf, name ∈ l.map nameOf := by
  constructor
  · rintro ⟨hnames, hrelated⟩
    refine ⟨fun a ha => ?_, fun name => (hnames name).2⟩
    obtain ⟨b, hb, hba⟩ := List.mem_map.1 ((hnames _).1 (List.mem_map_of_mem ha))
    exact ⟨b, hb, (hsame a b).2 ⟨hba.symm, hrelated a ha b hb hba.symm⟩⟩
  · rintro ⟨hpartner, hothers⟩
    refine ⟨fun name => ⟨fun hname => ?_, hothers name⟩, fun a ha b hb hab => ?_⟩
    · obtain ⟨a, ha, rfl⟩ := List.mem_map.1 hname
      obtain ⟨b, hb, hab⟩ := hpartner a ha
      exact ((hsame a b).1 hab).1 ▸ List.mem_map_of_mem hb
    · obtain ⟨c, hc, hac⟩ := hpartner a ha
      obtain ⟨hname, hrelated⟩ := (hsame a c).1 hac
      -- `b` is the only observed entry of its name
      exact List.inj_on_of_nodup_map hm hc hb (hname.symm.trans hab) ▸ hrelated

/-- In lists that match, each observed entry has a declared partner. -/
theorem SameNamed.exists_same (h : SameNamed nameOf related l m)
    (hsame : ∀ a b, same a b = true ↔ nameOf a = nameOf b ∧ related a b) {b : α} (hb : b ∈ m) :
    ∃ a ∈ l, same a b = true := by
  obtain ⟨a, ha, hab⟩ := List.mem_map.1 ((h.names _).2 (List.mem_map_of_mem hb))
  exact ⟨a, ha, (hsame a b).2 ⟨hab, h.related a ha b hb hab⟩⟩

/-- What neither names nor the relation look at can be changed in all entries. -/
theorem sameNamed_map_iff {f : α → α} (hname : ∀ a, nameOf (f a) = nameOf a)
    (hrelated : ∀ a b, related (f a) (f b) ↔ related a b) :
    SameNamed nameOf related (l.map f) (m.map f) ↔ SameNamed nameOf related l m := by
  have hnames : ∀ k : List α, (k.map f).map nameOf = k.map nameOf := fun k => by
    rw [List.map_map]
    exact List.map_congr_left fun a _ => hname a
  constructor
  · rintro ⟨h, hall⟩
    refine ⟨fun name => by rw [← hnames l, ← hnames m, h], fun a ha b hb hab => ?_⟩
    rw [← hrelated]
    exact hall (f a) (List.mem_map_of_mem ha) (f b) (List.mem_map_of_mem hb)
      (by rw [hname, hname, hab])
  · rintro ⟨h, hall⟩
    refine ⟨fun name => by rw [hnames, hnames, h], fun c hc d hd hcd => ?_⟩
    obtain ⟨a, ha, rfl⟩ := List.mem_map.1 hc
    obtain ⟨b, hb, rfl⟩ := List.mem_map.1 hd
    rw [hrelated]
    exact hall a ha b hb (by rw [← hname a, hcd, hname])

end SameNamed

/-! ## Parts without a difference -/

/-- No column is missing and none would be dropped exactly if the names are the same. -/
theorem columnsToAdd_eq_ok_nil_iff {declared observed : List Column} :
    columnsToAdd declared observed = .ok [] ↔
      ∀ name, name ∈ declared.map Column.name ↔ name ∈ observed.map Column.name := by
  rw [columnsToAdd_eq_ok_iff, droppedColumns_eq_nil_iff, eq_comm (a := ([] : List Column)),
    List.filter_eq_nil_iff]
  simp only [decide_eq_true_eq, not_not]
  constructor
  · rintro ⟨hobserved, hdeclared⟩ name
    refine ⟨fun hname => ?_, hobserved name⟩
    obtain ⟨c, hc, rfl⟩ := List.mem_map.1 hname
    exact hdeclared c hc
  · intro h
    exact ⟨fun name => (h name).2, fun c hc => (h c.name).1 (List.mem_map_of_mem hc)⟩

/-- Indexes are the same if they have one name and one holds in the other. -/
theorem Index.sameAs_iff_holdsIn (i o : Index) :
    i.sameAs o = true ↔ i.name = o.name ∧ i.HoldsIn o := by
  rw [Index.sameAs_iff]
  exact and_congr_right fun _ => ⟨fun h => ⟨h.1, h.2⟩, fun h => ⟨h.columns, h.cover⟩⟩

/-- Indexes do not differ exactly if each declared one holds and there are no others. -/
theorem indexDifference_eq_nil_iff {declared observed : List Index}
    (ho : (observed.map Index.name).Nodup) : indexDifference declared observed = ⟨[], []⟩ ↔
      SameNamed Index.name Index.HoldsIn declared observed := by
  rw [sameNamed_iff Index.sameAs_iff_holdsIn ho, indexDifference, IndexDifference.mk.injEq,
    List.filter_eq_nil_iff, List.filter_eq_nil_iff]
  simp only [Bool.not_eq_true', Bool.not_eq_false, Index.isAmong_iff ho, decide_eq_true_eq, not_not]

theorem Changefeed.sameAs_iff_holdsIn (f o : Changefeed) :
    f.sameAs o = true ↔ f.name = o.name ∧ f.HoldsIn o := by
  rw [Changefeed.sameAs_iff]
  refine and_congr_right fun _ => ⟨fun h => ⟨h.1, h.2.1, h.2.2.1, h.2.2.2⟩, fun h => ?_⟩
  exact ⟨h.mode, h.format, h.virtualTimestamps, h.retention⟩

theorem changefeedDifference_eq_nil_iff {declared observed : List Changefeed}
    (hd : (declared.map Changefeed.name).Nodup) (ho : (observed.map Changefeed.name).Nodup) :
    changefeedDifference declared observed = ⟨[], []⟩ ↔
      SameNamed Changefeed.name Changefeed.HoldsIn declared observed := by
  rw [changefeedDifference, ChangefeedDifference.mk.injEq, List.map_eq_nil_iff,
    List.filter_eq_nil_iff, List.filter_eq_nil_iff]
  simp only [Bool.not_eq_true', Bool.not_eq_false, Changefeed.isAmong_iff ho,
    Changefeed.isAmong_iff hd]
  constructor
  · rintro ⟨hdeclared, hobserved⟩
    refine (sameNamed_iff Changefeed.sameAs_iff_holdsIn ho).2 ⟨hdeclared, fun name hname => ?_⟩
    obtain ⟨o, hmem, rfl⟩ := List.mem_map.1 hname
    obtain ⟨f, hf, hof⟩ := hobserved o hmem
    exact Changefeed.name_eq_of_sameAs hof ▸ List.mem_map_of_mem hf
  · intro h
    refine ⟨((sameNamed_iff Changefeed.sameAs_iff_holdsIn ho).1 h).1, fun o hmem => ?_⟩
    obtain ⟨f, hf, hfo⟩ := h.exists_same Changefeed.sameAs_iff_holdsIn hmem
    exact ⟨f, hf, Changefeed.sameAs_comm f o ▸ hfo⟩

/-! ## Settings without a difference -/

/-- A value has not changed exactly if it is observed as declared, or is not declared. -/
theorem changed?_eq_none_iff {α : Type} [DecidableEq α] {declared observed : Option α} :
    changed? declared observed = none ↔ ∀ a, declared = some a → observed = some a := by
  simp only [changed?, Option.filter_eq_none_iff, decide_eq_true_eq, not_not]

/-- Nothing of a partitioning is set exactly if what is declared of it holds. -/
theorem isEmpty_changedPartitioning_iff {declared observed : Partitioning} :
    (changedPartitioning declared observed).isEmpty = true ↔ declared.HoldsIn observed := by
  simp only [changedPartitioning, Partitioning.isEmpty, Bool.and_eq_true,
    Option.isNone_iff_eq_none, changed?_eq_none_iff, List.isEmpty_nil, and_true, true_and]
  constructor
  · rintro ⟨⟨⟨⟨hmin, hmax⟩, hload⟩, hsize⟩, hthreshold⟩
    exact ⟨hmin, hmax, hload, hsize, hthreshold⟩
  · rintro ⟨hmin, hmax, hload, hsize, hthreshold⟩
    exact ⟨⟨⟨⟨hmin, hmax⟩, hload⟩, hsize⟩, hthreshold⟩

/-- Where nothing is declared of the partitioning, nothing has to hold of it. -/
theorem Partitioning.holdsIn_of_empty (observed : Partitioning) :
    ({} : Partitioning).HoldsIn observed := by
  constructor <;> rintro _ ⟨⟩

theorem filter_changedPartitioning_eq_none_iff {declared : Option Partitioning}
    {observed : Partitioning} :
    (declared.map fun p => changedPartitioning p observed).filter (fun p => !p.isEmpty) = none ↔
      (declared.getD {}).HoldsIn observed := by
  cases declared with
  | none => exact iff_of_true rfl (Partitioning.holdsIn_of_empty observed)
  | some p =>
    rw [Option.map_some, Option.filter_eq_none_iff, Option.getD_some,
      ← isEmpty_changedPartitioning_iff]
    simp

/-- The expiry of rows is neither to be set nor to be removed exactly if it is the declared one. -/
theorem ttl_eq_iff {declared observed : Option Ttl} : declared = observed ↔
    changed? declared observed = none ∧ (declared.isNone && observed.isSome) = false := by
  rw [changed?_eq_none_iff]
  cases declared with
  | none => cases observed <;> simp
  | some ttl => simp [eq_comm]

/-- Settings do not differ exactly if the declared ones hold. -/
theorem settingsDifference_eq_nil_iff {declared observed : TableSettings} :
    settingsDifference declared observed = ⟨{}, false⟩ ↔ declared.HoldsIn observed := by
  rw [settingsDifference, SettingsDifference.mk.injEq, TableSettings.mk.injEq,
    filter_changedPartitioning_eq_none_iff, Option.map_eq_none_iff,
    @changed?_eq_none_iff _ _ (declared.replication.bind Replication.readReplicas)]
  constructor
  · rintro ⟨⟨hset, hpartitioning, hreplicas⟩, hreset⟩
    exact ⟨ttl_eq_iff.2 ⟨hset, hreset⟩, hpartitioning, hreplicas⟩
  · rintro ⟨httl, hpartitioning, hreplicas⟩
    obtain ⟨hset, hreset⟩ := ttl_eq_iff.1 httl
    exact ⟨⟨hset, hpartitioning, hreplicas⟩, hreset⟩

/-! ## Plans without operations -/

/-- There is one value in which no setting is given. -/
theorem TableSettings.isEmpty_iff {s : TableSettings} : s.isEmpty = true ↔ s = {} := by
  obtain ⟨ttl, partitioning, replication⟩ := s
  simp [isEmpty, and_assoc]

/-- Where settings may be altered, nothing is done about them exactly if they do not differ. -/
theorem settingsOperations_eq_nil_iff {options : PlanOptions} {path : String}
    {d : SettingsDifference} (hoption : options.alterSettings = true) :
    settingsOperations options path d = [] ↔ d = ⟨{}, false⟩ := by
  obtain ⟨set, resetTtl⟩ := d
  rw [settingsOperations, if_pos hoption, List.append_eq_nil_iff, SettingsDifference.mk.injEq,
    ← TableSettings.isEmpty_iff]
  simp

/-- There is nothing to do exactly if no part differs. -/
theorem tableOperations_eq_ok_nil_iff {declared observed : Table} :
    tableOperations {} declared observed = .ok [] ↔
      columnsToAdd declared.columns observed.columns = .ok [] ∧
      indexDifference declared.indexes observed.indexes = ⟨[], []⟩ ∧
      changefeedDifference declared.changefeeds observed.changefeeds = ⟨[], []⟩ ∧
      settingsDifference declared.settings observed.settings = ⟨{}, false⟩ := by
  constructor
  · intro h
    obtain ⟨columns, hcolumns, hnil⟩ := tableOperations_eq_ok_iff.1 h
    simp only [List.nil_eq, List.append_eq_nil_iff, List.map_eq_nil_iff,
      indexOperations_eq_nil_iff, changefeedOperations_eq_nil_iff,
      settingsOperations_eq_nil_iff] at hnil
    obtain ⟨⟨⟨rfl, hadd, hdrop⟩, hfeeds⟩, hsettings⟩ := hnil
    exact ⟨hcolumns, IndexDifference.mk.injEq .. ▸ ⟨hadd, hdrop⟩, hfeeds, hsettings⟩
  · rintro ⟨hcolumns, hindexes, hfeeds, hsettings⟩
    exact tableOperations_eq_ok_nil hcolumns hindexes hfeeds hsettings

/-- There is nothing to do exactly if the declared table holds. -/
theorem tableOperations_eq_ok_nil_iff_holdsIn {declared observed : Table}
    (hd : declared.DistinctNames) (ho : observed.DistinctNames) :
    tableOperations {} declared observed = .ok [] ↔ declared.HoldsIn observed := by
  rw [tableOperations_eq_ok_nil_iff, columnsToAdd_eq_ok_nil_iff,
    indexDifference_eq_nil_iff ho.indexes,
    changefeedDifference_eq_nil_iff hd.changefeeds ho.changefeeds, settingsDifference_eq_nil_iff]
  exact ⟨fun ⟨hcolumns, hindexes, hfeeds, hsettings⟩ => ⟨hcolumns, hindexes, hfeeds, hsettings⟩,
    fun h => ⟨h.columns, h.indexes, h.changefeeds, h.settings⟩⟩

/-! ## What is not compared -/

/-- What is not compared of a partitioning does not count. -/
theorem Partitioning.holdsIn_compared_iff {declared observed : Partitioning} :
    declared.compared.HoldsIn observed.compared ↔ declared.HoldsIn observed :=
  ⟨fun h => ⟨h.1, h.2, h.3, h.4, h.5⟩, fun h => ⟨h.1, h.2, h.3, h.4, h.5⟩⟩

namespace Table

variable {declared observed : Table}

@[simp] theorem columnNames_compared (t : Table) : t.compared.columnNames = t.columnNames := by
  simp [columnNames, compared]

theorem getD_partitioning_compared (t : Table) :
    t.compared.partitioning.getD {} = (t.partitioning.getD {}).compared := by
  cases h : t.partitioning <;> simp [compared, Partitioning.compared, h]

/-- What is not compared of settings does not count. -/
theorem settings_holdsIn_compared_iff :
    declared.compared.settings.HoldsIn observed.compared.settings ↔
      declared.settings.HoldsIn observed.settings := by
  have hpartitioning : (declared.compared.settings.partitioning.getD {}).HoldsIn
      (observed.compared.settings.partitioning.getD {}) ↔
        (declared.settings.partitioning.getD {}).HoldsIn
          (observed.settings.partitioning.getD {}) := by
    simp only [settings_partitioning, getD_partitioning_compared,
      Partitioning.holdsIn_compared_iff]
  exact ⟨fun h => ⟨h.ttl, hpartitioning.1 h.partitioning, h.replicas⟩,
    fun h => ⟨h.ttl, hpartitioning.2 h.partitioning, h.replicas⟩⟩

/-- What is never compared makes no difference. -/
theorem holdsIn_compared_iff : declared.compared.HoldsIn observed.compared ↔
    declared.HoldsIn observed := by
  have hcolumns : (∀ name, name ∈ declared.compared.columnNames ↔
      name ∈ observed.compared.columnNames) ↔
        ∀ name, name ∈ declared.columnNames ↔ name ∈ observed.columnNames := by
    simp only [columnNames_compared]
  have hindexes : SameNamed Index.name Index.HoldsIn declared.compared.indexes
      observed.compared.indexes ↔
        SameNamed Index.name Index.HoldsIn declared.indexes observed.indexes :=
    sameNamed_map_iff (fun _ => rfl) fun _ _ => ⟨fun h => ⟨h.1, h.2⟩, fun h => ⟨h.1, h.2⟩⟩
  have hfeeds : SameNamed Changefeed.name Changefeed.HoldsIn declared.compared.changefeeds
      observed.compared.changefeeds ↔
        SameNamed Changefeed.name Changefeed.HoldsIn declared.changefeeds observed.changefeeds :=
    sameNamed_map_iff (fun _ => rfl) fun _ _ =>
      ⟨fun h => ⟨h.1, h.2, h.3, h.4⟩, fun h => ⟨h.1, h.2, h.3, h.4⟩⟩
  have hsettings := @settings_holdsIn_compared_iff declared observed
  exact ⟨fun ⟨hc, hi, hf, hs⟩ => ⟨hcolumns.1 hc, hindexes.1 hi, hfeeds.1 hf, hsettings.1 hs⟩,
    fun ⟨hc, hi, hf, hs⟩ => ⟨hcolumns.2 hc, hindexes.2 hi, hfeeds.2 hf, hsettings.2 hs⟩⟩

theorem distinctNames_compared_iff {t : Table} : t.compared.DistinctNames ↔ t.DistinctNames := by
  have hindexes : t.compared.indexes.map Index.name = t.indexes.map Index.name := by
    simp [compared, Function.comp_def]
  have hfeeds : t.compared.changefeeds.map Changefeed.name = t.changefeeds.map Changefeed.name := by
    simp [compared, Function.comp_def]
  exact ⟨fun h => ⟨hindexes ▸ h.indexes, hfeeds ▸ h.changefeeds⟩,
    fun h => ⟨hindexes.symm ▸ h.indexes, hfeeds.symm ▸ h.changefeeds⟩⟩

end Table

/-! ## Up to date -/

/-- There is nothing to do for an accepted declaration exactly if the observed table is as it is
declared; and a declaration and a table that are the same in what is compared have the same
answer. -/
theorem planTable_upToDate_iff {declared observed : Table} (hvalid : declared.validate = .ok ())
    (hd : declared.DistinctNames) (ho : observed.DistinctNames) :
    (planTable {} declared (some observed) = .ok .upToDate ↔ declared.HoldsIn observed) ∧
    ∀ declared' observed' : Table, declared'.validate = .ok () →
      declared'.compared = declared.compared → observed'.compared = observed.compared →
      (planTable {} declared' (some observed') = .ok .upToDate ↔
        planTable {} declared (some observed) = .ok .upToDate) := by
  have hiff : planTable {} declared (some observed) = .ok .upToDate ↔
      declared.HoldsIn observed := by
    rw [planTable_some_eq_upToDate_iff hvalid, tableOperations_eq_ok_nil_iff_holdsIn hd ho]
  refine ⟨hiff, fun declared' observed' hvalid' hdeclared hobserved => ?_⟩
  have hd' : declared'.DistinctNames := by
    rw [← Table.distinctNames_compared_iff, hdeclared, Table.distinctNames_compared_iff]
    exact hd
  have ho' : observed'.DistinctNames := by
    rw [← Table.distinctNames_compared_iff, hobserved, Table.distinctNames_compared_iff]
    exact ho
  rw [hiff, planTable_some_eq_upToDate_iff hvalid', tableOperations_eq_ok_nil_iff_holdsIn hd' ho',
    ← Table.holdsIn_compared_iff, hdeclared, hobserved, Table.holdsIn_compared_iff]

/-- `seriesDeclared` as it may be observed when nothing is to be done: in another order, with
further settings, and different in all that is not compared. -/
def seriesSettled : Table where
  path := "/local/dir/series"
  columns := [{ name := "rating", type := "Float" }, { name := "title", type := "Text" },
    { name := "id", type := "Int64", family := some "cold", notNull := true }]
  primaryKey := ["title", "id"]
  indexes := [⟨"by_title", .async, ["title"], ["rating", "rating"]⟩]
  families := [⟨"cold", "hdd", "lz4"⟩]
  partitioning := some ⟨some 4, some 2, some 8, some true, none, none, [["m"]]⟩
  replication := some ⟨some "PER_AZ:1"⟩
  attributes := .ofList [("owner", "billing")]
  changefeeds := [{ name := "audit", initialScan := true },
    { name := "updates", retention := some "PT48H" }]

/-- The table of series is up to date once it is settled, whatever is not compared. -/
theorem planTable_upToDate_iff_settled :
    seriesDeclared.validate = .ok () ∧ seriesDeclared.HoldsIn seriesSettled ∧
      planTable {} seriesDeclared (some seriesSettled.compared) = .ok .upToDate ∧
      ¬seriesDeclared.HoldsIn seriesObserved := by
  have hsettled : seriesSettled.DistinctNames := ⟨by decide, by decide⟩
  have hvalid : seriesDeclared.validate = .ok () := rfl
  obtain ⟨hiff, hcompared⟩ := planTable_upToDate_iff hvalid distinctNames_seriesDeclared hsettled
  obtain ⟨hobserved, -⟩ := planTable_upToDate_iff hvalid distinctNames_seriesDeclared
    distinctNames_seriesObserved
  have hplan : planTable {} seriesDeclared (some seriesSettled) = .ok .upToDate := rfl
  refine ⟨hvalid, hiff.1 hplan, (hcompared _ _ rfl rfl rfl).2 hplan, fun h => ?_⟩
  have hnone := hobserved.2 h
  rw [planTable_some_eq_upToDate_iff rfl, tableOperations_series] at hnone
  cases hnone

end SchemaPlan
