import SchemaPlan.Proofs.Ddl.Failure
import SchemaPlan.Proofs.Plan.Preservation
import SchemaPlan.Proofs.Plan.TopicResolution
import SchemaPlan.Proofs.Table.Validation

/-!
# Plans that fail

What a plan consists of has all its parts: for tables because the declaration has been accepted and
settings are only set where some differ (`complete_of_mem_plannedOperations`), for topics because
codecs are only set where some are declared (`complete_of_mem_topicOperations`). So planning fails
only where something that is written cannot be written, and `planTable_failsFor` says where.
-/

namespace SchemaPlan

open Ddl

variable {options : PlanOptions} {declared observed : Table} {operation : Operation}
  {operations : List Operation} {e : Error}

/-! ## Complete operations -/

/-- The settings to set are only those that their statement sets. -/
theorem written_settingsDifference (declared observed : TableSettings) :
    (settingsDifference declared observed).set.written =
      (settingsDifference declared observed).set := by
  simp only [settingsDifference, TableSettings.written, Option.filter_filter, Bool.and_self,
    TableSettings.mk.injEq, true_and]
  cases changed? (declared.replication.bind Replication.readReplicas)
    (observed.replication.bind Replication.readReplicas) <;> rfl

/-- Split points are set only when a table is created. -/
theorem splitPoints_settingsDifference (declared observed : TableSettings) :
    ((settingsDifference declared observed).set.partitioning.getD {}).splitPoints = [] := by
  cases hp : declared.partitioning with
  | none => simp [settingsDifference, hp]
  | some p =>
    simp only [settingsDifference, hp, Option.map_some, Option.filter_some]
    split <;> rfl

/-- The operations that change settings have some to set. -/
theorem complete_of_mem_settingsOperations
    (h : operation ∈ settingsOperations options declared.path
      (settingsDifference declared.settings observed.settings)) : operation.Complete := by
  unfold settingsOperations at h
  split at h
  · rcases List.mem_append.1 h with h | h
    · split at h
      · exact absurd h List.not_mem_nil
      · next hset =>
        rw [List.mem_singleton.1 h]
        exact ⟨by simpa [written_settingsDifference] using hset,
          splitPoints_settingsDifference _ _⟩
    · split at h
      · rw [List.mem_singleton.1 h]
        trivial
      · exact absurd h List.not_mem_nil
  · exact absurd h List.not_mem_nil

/-- An accepted declaration has what its creation needs. -/
theorem complete_createTable (h : declared.validate = .ok ()) :
    (Operation.createTable declared).Complete := by
  have hwell := Table.validate_eq_ok_iff.1 h
  exact ⟨hwell.columns, hwell.primaryKey, hwell.keyColumns, hwell.indexes⟩

/-- Settings are set by the operations for settings only. -/
theorem setTableSettings_mem_settingsOperations {path : String} {settings : TableSettings}
    (h : tableOperations options declared observed = .ok operations)
    (hmem : .setTableSettings path settings ∈ operations) :
    .setTableSettings path settings ∈ settingsOperations options declared.path
      (settingsDifference declared.settings observed.settings) := by
  obtain ⟨columns, -, rfl⟩ := tableOperations_eq_ok_iff.1 h
  simpa [indexOperations, changefeedOperations] using hmem

/-- Where a declaration is accepted, no part is missing in what its plan consists of. -/
theorem complete_of_mem_plannedOperations {observed : Option Table}
    (hvalid : declared.validate = .ok ())
    (h : plannedOperations options declared observed = .ok operations)
    (hmem : operation ∈ operations) : operation.Complete := by
  have hcreate := complete_createTable hvalid
  cases observed with
  | none =>
    cases h
    rwa [List.mem_singleton.1 hmem]
  | some observed =>
    cases planned_of_mem_tableOperations h hmem with
    | addIndex hi => exact hcreate.2.2.2 _ (List.mem_filter.1 hi).1
    | setSettings =>
      exact complete_of_mem_settingsOperations (setTableSettings_mem_settingsOperations h hmem)
    | _ => trivial

/-- A change of consumers that sets codecs sets some. -/
theorem complete_of_mem_consumerChanges {table : CodecTable} {consumers : List DeclaredConsumer}
    {observed : List Consumer} {changes : List ConsumerChange} {change : ConsumerChange}
    (h : consumerChanges table consumers observed = .ok changes) (hmem : change ∈ changes)
    (topic : String) : (Operation.changeConsumer topic change).Complete := by
  obtain ⟨-, blocks, hblocks, rfl⟩ := consumerChanges_eq_ok_iff.1 h
  obtain ⟨block, hblock, hmem⟩ := List.mem_flatten.1 hmem
  obtain ⟨c, -, hc⟩ := exists_of_mem_mapM (mapM_eq_ok_iff.2 hblocks) hblock
  unfold changesFor at hc
  split at hc
  · obtain ⟨codecs, -, rfl⟩ := changesOf_eq_ok_iff.1 hc
    rcases List.mem_append.1 hmem with hmem | hmem
    · split at hmem
      · exact absurd hmem List.not_mem_nil
      · rw [List.mem_singleton.1 hmem]
        trivial
    · split at hmem
      · exact absurd hmem List.not_mem_nil
      · next hcodecs =>
        rw [List.mem_singleton.1 hmem]
        simpa [Operation.Complete] using hcodecs
  · obtain ⟨consumer, -, rfl⟩ := map_eq_ok_iff.1 hc
    rw [List.mem_singleton.1 hmem]
    trivial

/-- No part is missing in what a plan for a topic consists of. -/
theorem complete_of_mem_topicOperations {table : CodecTable} {declared : DeclaredTopic}
    {observed : Topic} (h : topicOperations table declared observed = .ok operations)
    (hmem : operation ∈ operations) : operation.Complete := by
  obtain ⟨settings, -, changes, hchanges, rfl⟩ := topicOperations_eq_ok_iff.1 h
  rcases List.mem_append.1 hmem with hmem | hmem
  · split at hmem
    · exact absurd hmem List.not_mem_nil
    · next hset =>
      rw [List.mem_singleton.1 hmem]
      exact Bool.eq_false_iff.2 hset
  · obtain ⟨change, hchange, rfl⟩ := List.mem_map.1 hmem
    exact complete_of_mem_consumerChanges hchanges hchange _

/-! ## Faults of plans -/

/-- A plan of complete operations fails exactly for the faults of its operations. -/
theorem failsFor_ofOperations (h : ∀ operation ∈ operations, operation.Complete) :
    FailsFor (fun e => ∃ operation ∈ operations, operation.Fault e)
      (Plan.ofOperations operations) := by
  unfold Plan.ofOperations
  cases operations with
  | nil => exact (FailsFor.ok _).congr fun e => by simp
  | cons first rest => exact (FailsFor.mapM fun o ho => failsFor_statement (h o ho)).map

/-- Columns cannot be compared exactly if an observed one is not declared, and the error names all
of these. -/
theorem failsFor_columnsToAdd {declared observed : List Column} :
    FailsFor (fun e => (∃ c ∈ observed, c.name ∉ declared.map Column.name) ∧
      e = .droppedColumns (droppedColumns declared observed)) (columnsToAdd declared observed) := by
  have hdropped : droppedColumns declared observed ≠ [] ↔
      ∃ c ∈ observed, c.name ∉ declared.map Column.name := by
    simp [droppedColumns_eq_nil_iff]
  unfold columnsToAdd
  simp only [← hdropped]
  cases droppedColumns declared observed with
  | nil => exact (FailsFor.ok _).congr fun e => by simp
  | cons name names => exact (FailsFor.error _).congr fun e => by simp

/-- A plan fails for columns that would be dropped or for the faults of its operations. -/
theorem planFault_iff {observed : Option Table} : PlanFault options declared observed e ↔
    (∃ o, observed = some o ∧ (∃ c ∈ o.columns, c.name ∉ declared.columnNames) ∧
      e = .droppedColumns (droppedColumns declared.columns o.columns)) ∨
    ∃ operations, plannedOperations options declared observed = .ok operations ∧
      ∃ operation ∈ operations, operation.Fault e := by
  constructor
  · rintro (⟨h, hdropped⟩ | ⟨h, hmem, hfault⟩)
    · exact .inl ⟨_, rfl, ⟨_, h, hdropped⟩, rfl⟩
    · exact .inr ⟨_, h, _, hmem, hfault⟩
  · rintro (⟨o, rfl, ⟨c, h, hdropped⟩, rfl⟩ | ⟨operations, h, operation, hmem, hfault⟩)
    · exact .dropped h hdropped
    · exact .operation h hmem hfault

/-- Planning a table fails exactly if there is a fault, and reports one of its faults. -/
theorem failsFor_planTable {observed : Option Table} (hvalid : declared.validate = .ok ()) :
    FailsFor (PlanFault options declared observed) (planTable options declared observed) := by
  unfold planTable
  rw [hvalid]
  cases observed with
  | none =>
    refine (failsFor_statement (complete_createTable hvalid)).bind_pure.congr fun e => ?_
    simp [planFault_iff, plannedOperations]
  | some observed =>
    have hwritten : ∀ operations, tableOperations options declared observed = .ok operations →
        FailsFor (fun e => ∃ operations, tableOperations options declared observed = .ok operations
          ∧ ∃ operation ∈ operations, operation.Fault e) (Plan.ofOperations operations) :=
        fun operations h => by
      have hplanned : plannedOperations options declared (some observed) = .ok operations := h
      exact (failsFor_ofOperations fun _ =>
        complete_of_mem_plannedOperations hvalid hplanned).congr fun e => by simp [h]
    refine (failsFor_columnsToAdd.bind_pure.bind_pure.bind hwritten).congr fun e => ?_
    simp [planFault_iff, plannedOperations, Table.columnNames]

/-! ## What is never reported -/

/-- No fault of an operation is that something of it is missing. -/
theorem not_isIncomplete_of_fault (h : operation.Fault e) : e.isIncomplete = false := by
  cases h with
  | quoting h =>
    obtain ⟨⟨quote, content⟩, -, -, rfl⟩ := h
    cases quote <;> rfl
  | type h hfault =>
    rw [hfault.2]
    rfl
  | creation h hfault =>
    cases hfault with
    | attributeKey => rfl
    | splitPoint _ _ hfault => cases hfault <;> rfl

theorem not_isIncomplete_of_planFault {observed : Option Table}
    (h : PlanFault options declared observed e) : e.isIncomplete = false := by
  cases h with
  | dropped => rfl
  | operation _ _ hfault => exact not_isIncomplete_of_fault hfault

theorem not_isIncomplete_of_validate (h : declared.validate = .error e) :
    e.isIncomplete = false := by
  unfold Table.validate at h
  cases hproblems : declared.problems with
  | nil => simp [hproblems, Error.ofProblems] at h
  | cons problem problems =>
    cases problems <;> simp only [hproblems, Error.ofProblems, Except.error.injEq] at h <;>
      subst h <;> rfl

section Topics

variable {table : CodecTable}

theorem CodecTable.not_isIncomplete_of_lookupAll {names : List String}
    (h : table.lookupAll names = .error e) : e.isIncomplete = false := by
  obtain ⟨name, rfl⟩ := exists_of_lookupAll_eq_error h
  rfl

/-- No refusal of a declaration is that something of a statement is missing. -/
theorem SameRefusal.not_isIncomplete {path : String} {d : Error} (h : SameRefusal path d e) :
    d.isIncomplete = false ∧ e.isIncomplete = false := by
  cases h <;> exact ⟨rfl, rfl⟩

theorem DeclaredTopic.not_isIncomplete_of_resolve {declared : DeclaredTopic}
    (h : declared.resolve table = .error e) : e.isIncomplete = false := by
  simp only [resolve, bind_eq_error_iff] at h
  rcases h with h | ⟨codecs, -, h | ⟨_, -, h⟩⟩
  · obtain ⟨name, rfl⟩ := CodecTable.exists_of_lookupOrAll_eq_error h
    rfl
  · obtain ⟨_, -, hsame⟩ := (@consumerChangesAfter_alike table _ [] _ []).exists_of_error h
    exact hsame.not_isIncomplete.1
  · cases h

theorem not_isIncomplete_of_consumerChanges {consumers : List DeclaredConsumer}
    {observed : List Consumer} (h : consumerChanges table consumers observed = .error e) :
    e.isIncomplete = false := by
  have halike := @consumerChangesAfter_alike table "" observed consumers []
  rw [← consumerChanges, h] at halike
  generalize DeclaredConsumer.resolveAll _ _ _ _ = resolved at halike
  cases halike with
  | error hsame => exact hsame.not_isIncomplete.2

theorem not_isIncomplete_of_topicOperations {declared : DeclaredTopic} {observed : Topic}
    (h : topicOperations table declared observed = .error e) : e.isIncomplete = false := by
  simp only [topicOperations, topicDifference, bind_eq_error_iff] at h
  rcases h with (h | ⟨_, -, h⟩) | ⟨_, -, h | ⟨_, -, h⟩⟩
  · exact CodecTable.not_isIncomplete_of_lookupAll h
  · cases h
  · exact not_isIncomplete_of_consumerChanges h
  · cases h

/-- A plan for a topic never fails for a statement that is incomplete. -/
theorem not_isIncomplete_of_planTopic {declared : DeclaredTopic} {observed : Option Topic}
    (h : planTopic table declared observed = .error e) : e.isIncomplete = false := by
  unfold planTopic at h
  cases observed with
  | none =>
    simp only [refuse_eq_error_iff, bind_eq_error_iff] at h
    rcases h with ⟨-, rfl⟩ | ⟨-, h | ⟨t, -, h | ⟨_, -, h⟩⟩⟩
    · rfl
    · exact DeclaredTopic.not_isIncomplete_of_resolve h
    · have hcomplete : (Operation.createTopic t).Complete := trivial
      exact not_isIncomplete_of_fault ((failsFor_statement hcomplete).cause e h)
    · cases h
  | some observed =>
    simp only [refuse_eq_error_iff, bind_eq_error_iff] at h
    rcases h with ⟨-, rfl⟩ | ⟨-, h | ⟨operations, hoperations, h⟩⟩
    · rfl
    · exact not_isIncomplete_of_topicOperations h
    · obtain ⟨operation, -, hfault⟩ := (failsFor_ofOperations fun _ =>
        complete_of_mem_topicOperations hoperations).cause e h
      exact not_isIncomplete_of_fault hfault

end Topics

/-! ## Reasons to fail -/

/-- Planning an accepted declaration of a table fails exactly if there is a reason for it, which is
one that the error states: an observed column is not declared, or an operation has a name, text,
type, attribute or split point that its statement cannot hold. No declaration, accepted or not, and
none of a topic either, fails for a part that is missing in a statement. -/
theorem planTable_fails_iff :
    (∀ (options : PlanOptions) (declared : Table) (observed : Option Table),
      declared.validate = .ok () →
        ((∃ e, planTable options declared observed = .error e) ↔
          ∃ e, PlanFault options declared observed e) ∧
        ∀ e, planTable options declared observed = .error e →
          PlanFault options declared observed e) ∧
    (∀ (options : PlanOptions) (declared : Table) (observed : Option Table) (e : Error),
      planTable options declared observed = .error e → e.isIncomplete = false) ∧
    ∀ (codecs : CodecTable) (declared : DeclaredTopic) (observed : Option Topic) (e : Error),
      planTopic codecs declared observed = .error e → e.isIncomplete = false := by
  refine ⟨fun options declared observed hvalid => ?_, fun options declared observed e h => ?_,
    fun _ _ _ _ => not_isIncomplete_of_planTopic⟩
  · have hfails := @failsFor_planTable options declared observed hvalid
    exact ⟨hfails.exists_error_iff, hfails.cause⟩
  · cases hvalid : declared.validate with
    | error d =>
      unfold planTable at h
      rw [hvalid] at h
      cases h
      exact not_isIncomplete_of_validate hvalid
    | ok _ => exact not_isIncomplete_of_planFault ((failsFor_planTable hvalid).cause e h)

/-- A table with an index that cannot be named in a statement. -/
def ticked : Table where
  path := "n/t"
  columns := [⟨"id", "Uint64", none, true⟩]
  primaryKey := ["id"]
  indexes := [⟨"by\x60id", .sync, ["id"], []⟩]

/-- The table without its index. -/
def unticked : Table :=
  { ticked with indexes := [] }

/-- The index cannot be added where it is missing. -/
theorem planTable_fails_iff_ticked : ticked.validate = .ok () ∧
    ((∃ e, planTable {} ticked (some unticked) = .error e) ↔
      ∃ e, PlanFault {} ticked (some unticked) e) ∧
    PlanFault {} ticked (some unticked) (.rejected (.forbiddenInName "by\x60id")) := by
  have hvalid : ticked.validate = .ok () := by decide
  obtain ⟨hiff, hcause⟩ := planTable_fails_iff.1 {} ticked (some unticked) hvalid
  exact ⟨hvalid, hiff, hcause _ (by decide)⟩

end SchemaPlan
