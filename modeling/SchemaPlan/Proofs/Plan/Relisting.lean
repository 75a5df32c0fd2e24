import SchemaPlan.Proofs.Plan.Stability
import SchemaPlan.Proofs.Plan.TopicConvergence
import SchemaPlan.Relisting

/-!
# The order of what is observed

Every comparison looks at observed entries by their names or as a set, and so does not depend on
how they are listed : `Index.isAmong_relisted`, `Changefeed.isAmong_perm`, `columnsToAdd_alike`,
`changesFor_perm`. What is observed and not declared is dropped in the order in which it is listed,
and this is the only place where the order shows (`tableOperations_relisted`). For topics, where
nothing is dropped, the operations are the same (`topicOperations_relisted`). Together they are
`relisted_makes_no_difference`.
-/

namespace SchemaPlan

/-! ## Columns -/

section Columns

variable {declared observed observed' : List Column}

/-- The columns that would be dropped are the same in another order. -/
theorem droppedColumns_perm (h : observed.Perm observed') :
    (droppedColumns declared observed).Perm (droppedColumns declared observed') :=
  (h.map Column.name).filter _

/-- In another order the same columns are added, or the same would be dropped. -/
theorem columnsToAdd_alike (h : observed.Perm observed') :
    Alike (· = ·) SameDroppedColumns (columnsToAdd declared observed)
      (columnsToAdd declared observed') := by
  have hdropped := @droppedColumns_perm declared _ _ h
  unfold columnsToAdd
  cases hd : droppedColumns declared observed with
  | nil =>
    rw [hd, List.nil_perm] at hdropped
    rw [hdropped]
    refine .ok (List.filter_congr fun c _ => ?_)
    simp only [(h.map Column.name).mem_iff]
  | cons name names =>
    cases hd' : droppedColumns declared observed' with
    | nil => rw [hd, hd', List.perm_nil] at hdropped; cases hdropped
    | cons name' names' => exact .error (.intro (hd ▸ hd' ▸ hdropped))

end Columns

/-! ## Indexes -/

namespace Index

/-- The order of the columns that an index covers makes no difference. -/
theorem Relisted.sameAs_eq {j k : Index} (h : j.Relisted k) (i : Index) :
    i.sameAs j = i.sameAs k := by
  rw [Bool.eq_iff_iff, sameAs_iff, sameAs_iff, h.name, h.columns]
  simp only [h.cover]

end Index

section Indexes

variable {declared observed observed' indexes : List Index}

/-- Indexes that are listed differently have the same names. -/
theorem names_of_forall₂_relisted (h : List.Forall₂ Index.Relisted indexes observed') :
    indexes.map Index.name = observed'.map Index.name := by
  induction h with
  | nil => rfl
  | cons hij _ ih => rw [List.map_cons, List.map_cons, hij.name, ih]

theorem exists_sameAs_of_forall₂_relisted (h : List.Forall₂ Index.Relisted indexes observed')
    (i : Index) : (∃ j ∈ indexes, i.sameAs j = true) ↔ ∃ j ∈ observed', i.sameAs j = true := by
  induction h with
  | nil => rfl
  | cons hjk _ ih => simp only [List.exists_mem_cons_iff, ih, hjk.sameAs_eq]

variable (hperm : observed.Perm indexes) (hrelisted : List.Forall₂ Index.Relisted indexes observed')

include hperm hrelisted

/-- The names that are observed are listed in another order. -/
theorem names_relisted : (observed.map Index.name).Perm (observed'.map Index.name) :=
  names_of_forall₂_relisted hrelisted ▸ hperm.map Index.name

/-- Whether an index is there does not depend on how the indexes are listed. -/
theorem Index.isAmong_relisted (ho : (observed.map Index.name).Nodup) (i : Index) :
    i.isAmong observed = i.isAmong observed' := by
  have ho' := (names_relisted hperm hrelisted).nodup_iff.1 ho
  rw [Bool.eq_iff_iff, Index.isAmong_iff ho, Index.isAmong_iff ho',
    ← exists_sameAs_of_forall₂_relisted hrelisted]
  simp only [hperm.mem_iff]

/-- The same indexes are added, in the same order. -/
theorem add_indexDifference_relisted (ho : (observed.map Index.name).Nodup) :
    (indexDifference declared observed).add = (indexDifference declared observed').add :=
  List.filter_congr fun i _ => by rw [Index.isAmong_relisted hperm hrelisted ho]

/-- The same indexes are dropped, in some order. -/
theorem drop_indexDifference_relisted :
    (indexDifference declared observed).drop.Perm (indexDifference declared observed').drop :=
  (names_relisted hperm hrelisted).filter _

theorem changedIndexes_relisted (added : List Index) :
    changedIndexes added observed = changedIndexes added observed' :=
  List.filter_congr fun name _ => by simp only [(names_relisted hperm hrelisted).mem_iff]

end Indexes

/-! ## Changefeeds -/

section Changefeeds

variable {declared observed observed' : List Changefeed} (h : observed.Perm observed')

include h

theorem Changefeed.isAmong_perm (ho : (observed.map Changefeed.name).Nodup) (f : Changefeed) :
    f.isAmong observed = f.isAmong observed' := by
  rw [isAmong, isAmong, lastNamed?_perm h ho]

theorem add_changefeedDifference_perm (ho : (observed.map Changefeed.name).Nodup) :
    (changefeedDifference declared observed).add = (changefeedDifference declared observed').add :=
  List.filter_congr fun f _ => by rw [Changefeed.isAmong_perm h ho]

theorem drop_changefeedDifference_perm : (changefeedDifference declared observed).drop.Perm
    (changefeedDifference declared observed').drop :=
  (h.filter _).map _

end Changefeeds

/-! ## Plans for tables -/

section Tables

variable {options : PlanOptions} {declared observed observed' : Table}

/-- However a table is listed, the same columns are missing from the declaration, or the operations
are the same but for the order of drops. -/
theorem tableOperations_relisted (h : observed.Relisted observed')
    (ho : observed.DistinctNames) :
    Alike (SameButForDrops declared) SameDroppedColumns
      (tableOperations options declared observed) (tableOperations options declared observed') := by
  obtain ⟨indexes, hperm, hindexes⟩ := h.indexes
  have hdrop := @drop_indexDifference_relisted declared.indexes _ _ _ hperm hindexes
  have hfeeds := @drop_changefeedDifference_perm declared.changefeeds _ _ h.changefeeds
  simp only [tableOperations, tableDifference, bind_assoc, pure_bind]
  refine (columnsToAdd_alike h.columns).bind fun columns _ hcolumns => .ok ?_
  rw [← hcolumns, ← h.settings]
  have hsame := SameButForDrops.intro columns
    (if options.dropChangedIndexes then
      changedIndexes (indexDifference declared.indexes observed.indexes).add observed.indexes
    else [])
    (indexDifference declared.indexes observed.indexes).add
    (changefeedDifference declared.changefeeds observed.changefeeds).add
    (settingsOperations options declared.path
      (settingsDifference declared.settings observed.settings)) hdrop
    (fun name hname => (mem_drop_indexDifference.1 hname).2) hfeeds
  simpa only [indexOperations, changefeedOperations, List.append_assoc, apply_ite (List.map _),
    List.map_nil, ← add_indexDifference_relisted hperm hindexes ho.indexes,
    ← changedIndexes_relisted hperm hindexes,
    ← add_changefeedDifference_perm h.changefeeds ho.changefeeds] using hsame

/-- Plans that are the same but for the order of drops are empty together. -/
theorem SameButForDrops.eq_nil_iff {operations operations' : List Operation}
    (h : SameButForDrops declared operations operations') :
    operations = [] ↔ operations' = [] := by
  cases h with
  | intro _ _ _ _ _ hdrops _ hfeeds =>
    simp only [List.append_eq_nil_iff, List.map_eq_nil_iff]
    simp only [← List.length_eq_zero_iff, hdrops.length_eq, hfeeds.length_eq]

/-- However a table is listed, there is nothing to do for it or there is something to do. -/
theorem planTable_upToDate_relisted (h : observed.Relisted observed')
    (ho : observed.DistinctNames) : planTable options declared (some observed) = .ok .upToDate ↔
      planTable options declared (some observed') = .ok .upToDate := by
  simp only [planTable, bind_eq_ok_iff, ofOperations_eq_upToDate_iff, exists_eq_right]
  refine exists_congr fun _ => and_congr_right fun _ => ?_
  exact (tableOperations_relisted h ho).eq_ok_iff fun _ _ hsame => hsame.eq_nil_iff

end Tables

/-! ## Plans for topics -/

section Topics

variable {table : CodecTable} {declared : DeclaredTopic} {observed observed' : Topic}

/-- The settings of a topic that are set do not depend on the order of its consumers. -/
theorem topicDifference_relisted (h : observed.Relisted observed') :
    topicDifference table declared observed = topicDifference table declared observed' := by
  have hcodecs : ∀ codecs, sameElements codecs observed.codecs =
      sameElements codecs observed'.codecs := fun codecs => by
    rw [Bool.eq_iff_iff, sameElements_iff, sameElements_iff]
    simp only [h.codecs]
  simp only [topicDifference, h.partitions, h.retention, hcodecs]

variable {consumers consumers' : List Consumer}

/-- The changes for a declared consumer do not depend on the order of the observed ones. -/
theorem changesFor_perm (h : consumers.Perm consumers')
    (hnames : (consumers.map Consumer.name).Nodup) :
    changesFor table consumers = changesFor table consumers' := by
  funext c
  rw [changesFor, changesFor, lastNamed?_perm h hnames]

/-- The plan for a topic does not depend on the order of its consumers. -/
theorem topicOperations_relisted (h : observed.Relisted observed')
    (hnames : (observed.consumers.map Consumer.name).Nodup) :
    topicOperations table declared observed = topicOperations table declared observed' := by
  simp only [topicOperations, consumerChanges, topicDifference_relisted h,
    consumerChangesAfter_congr fun c _ => congrFun (changesFor_perm h.consumers hnames) c]

end Topics

/-! ## Plans -/

/-- How what is observed is listed makes no difference. A table that is listed in another order
lacks the same declarations of columns, or needs the same operations but for the order of drops, and
it is up to date if it was; a topic that is listed in another order needs the same operations. -/
theorem relisted_makes_no_difference :
    (∀ (options : PlanOptions) (declared observed observed' : Table),
      observed.Relisted observed' → observed.DistinctNames →
      Alike (SameButForDrops declared) SameDroppedColumns
        (tableOperations options declared observed)
        (tableOperations options declared observed') ∧
      (planTable options declared (some observed) = .ok .upToDate ↔
        planTable options declared (some observed') = .ok .upToDate)) ∧
    ∀ (table : CodecTable) (declared : DeclaredTopic) (observed observed' : Topic),
      observed.Relisted observed' → (observed.consumers.map Consumer.name).Nodup →
      topicOperations table declared observed = topicOperations table declared observed' :=
  ⟨fun _ _ _ _ h ho => ⟨tableOperations_relisted h ho, planTable_upToDate_relisted h ho⟩,
    fun _ _ _ _ => topicOperations_relisted⟩

/-- `seriesObserved` with two more indexes and one more changefeed that are not declared. -/
def seriesCrowded : Table :=
  { seriesObserved with
    indexes := [{ name := "by_id", columns := ["id"], cover := ["title", "id"] },
      { name := "by_title", columns := ["title"] }, { name := "by_age", columns := ["id"] }]
    changefeeds := [{ name := "updates" }, { name := "trail" }] }

/-- `seriesCrowded`, listed in another order. -/
def seriesShuffled : Table :=
  { seriesObserved with
    columns := [{ name := "id", type := "Uint64" }, { name := "title", type := "Utf8" }]
    indexes := [{ name := "by_age", columns := ["id"] },
      { name := "by_title", columns := ["title"] },
      { name := "by_id", columns := ["id"], cover := ["id", "title", "id"] }]
    changefeeds := [{ name := "trail" }, { name := "updates" }] }

/-- `feedObserved`, with its consumers in another order and its codec listed twice. -/
def feedShuffled : Topic :=
  { feedObserved with
    codecs := [.raw, .raw]
    consumers := feedObserved.consumers.reverse }

theorem relisted_seriesShuffled : seriesCrowded.Relisted seriesShuffled where
  path := rfl
  columns := by decide
  primaryKey := rfl
  indexes := by
    refine ⟨seriesCrowded.indexes.reverse, (List.reverse_perm _).symm, ?_⟩
    refine .cons ⟨rfl, rfl, rfl, by simp⟩ (.cons ⟨rfl, rfl, rfl, by simp⟩ (.cons ?_ .nil))
    exact ⟨rfl, rfl, rfl, by simp [or_comm]⟩
  families := rfl
  settings := rfl
  attributes := rfl
  changefeeds := by decide

theorem relisted_feedShuffled : feedObserved.Relisted feedShuffled where
  path := rfl
  partitions := rfl
  retention := rfl
  codecs := by simp [feedObserved, feedShuffled]
  consumers := (List.reverse_perm _).symm

/-- The table of series with its lists in another order has another plan, which differs only in the
order of drops. -/
theorem relisted_makes_no_difference_shuffled :
    (seriesCrowded.DistinctNames ∧
      ∃ operations operations',
        tableOperations {} seriesDeclared seriesCrowded = .ok operations ∧
        tableOperations {} seriesDeclared seriesShuffled = .ok operations' ∧
        SameButForDrops seriesDeclared operations operations' ∧ operations ≠ operations') ∧
    (planTable {} seriesDeclared (some seriesCrowded) = .ok .upToDate ↔
      planTable {} seriesDeclared (some seriesShuffled) = .ok .upToDate) ∧
    (feedObserved.consumers.map Consumer.name).Nodup ∧
      topicOperations .standard feedDeclared feedObserved =
        topicOperations .standard feedDeclared feedShuffled := by
  have hnames : seriesCrowded.DistinctNames := ⟨by decide, by decide⟩
  have hconsumers : (feedObserved.consumers.map Consumer.name).Nodup := by decide
  obtain ⟨htables, htopics⟩ := relisted_makes_no_difference
  obtain ⟨halike, hplan⟩ := htables {} seriesDeclared _ _ relisted_seriesShuffled hnames
  obtain ⟨operations, hoperations⟩ : ∃ operations,
      tableOperations {} seriesDeclared seriesCrowded = .ok operations := ⟨_, rfl⟩
  obtain ⟨operations', hoperations', hsame⟩ := halike.exists_of_ok hoperations
  refine ⟨⟨hnames, operations, operations', hoperations, hoperations', hsame, ?_⟩, hplan,
    hconsumers, htopics _ _ _ _ relisted_feedShuffled hconsumers⟩
  rintro rfl
  rw [← hoperations'] at hoperations
  exact absurd hoperations (by decide)

end SchemaPlan
