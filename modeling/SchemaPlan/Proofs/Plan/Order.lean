import SchemaPlan.Proofs.Plan.TableRun

/-!
# The order of a plan for a table

`Operation.stage` numbers the kinds of operations in the order in which they stand in a plan, drops
in front of additions. `pairwise_precedes_tableOperations` : a plan goes through the stages in
order, and no operation stands in it twice.
-/

namespace SchemaPlan

namespace Operation

/-- The place of operations of this kind in a plan for a table. -/
def stage : Operation → Nat
  | addColumn .. => 0
  | dropIndex .. => 1
  | addIndex .. => 2
  | dropChangefeed .. => 3
  | addChangefeed .. => 4
  | setTableSettings .. => 5
  | resetTtl .. => 6
  | _ => 7

/-- The operations may stand in this order in a plan for a table. -/
def Precedes (first second : Operation) : Prop :=
  first.stage ≤ second.stage ∧ first ≠ second

end Operation

open Operation (Precedes)

/-! ## Operations of one stage, and of several -/

/-- Distinct operations of one stage may stand in any order. -/
theorem pairwise_precedes_map {α : Type} {f : α → Operation} {l : List α} (hl : l.Nodup)
    (hf : Function.Injective f) (hstage : ∀ a b, (f a).stage = (f b).stage) :
    (l.map f).Pairwise Precedes :=
  List.pairwise_map.2 <| hl.imp fun hne => ⟨Nat.le_of_eq (hstage _ _), fun heq => hne (hf heq)⟩

/-- Lists in order are in order one after the other if a stage parts them. -/
theorem pairwise_precedes_append {first second : List Operation} (n : Nat)
    (hfirst : first.Pairwise Precedes) (hsecond : second.Pairwise Precedes)
    (hbelow : ∀ a ∈ first, a.stage < n) (habove : ∀ b ∈ second, n ≤ b.stage) :
    (first ++ second).Pairwise Precedes := by
  refine List.pairwise_append.2 ⟨hfirst, hsecond, fun a ha b hb => ?_⟩
  have hlt : a.stage < b.stage := Nat.lt_of_lt_of_le (hbelow a ha) (habove b hb)
  exact ⟨Nat.le_of_lt hlt, fun heq => Nat.ne_of_lt hlt (congrArg _ heq)⟩

/-! ## The blocks of a plan -/

section Blocks

variable (path : String)

theorem pairwise_precedes_addColumns {columns : List Column} (h : columns.Nodup) :
    (columns.map (.addColumn path)).Pairwise Precedes :=
  pairwise_precedes_map h (fun _ _ heq => (Operation.addColumn.inj heq).2) fun _ _ => rfl

/-- No index is dropped twice. -/
theorem nodup_droppedIndexes {declared observed : List Index}
    (hd : (declared.map Index.name).Nodup) (ho : (observed.map Index.name).Nodup) :
    ((indexDifference declared observed).drop
      ++ changedIndexes (indexDifference declared observed).add observed).Nodup := by
  have hadd : ((indexDifference declared observed).add.map Index.name).Nodup :=
    hd.sublist (List.filter_sublist.map _)
  refine List.nodup_append.2
    ⟨ho.sublist List.filter_sublist, hadd.sublist List.filter_sublist, ?_⟩
  -- of the first the name is not declared, of the second it is
  rintro name hdropped _ hchanged rfl
  obtain ⟨i, hi, rfl⟩ := List.mem_map.1 (mem_changedIndexes.1 hchanged).1
  exact (mem_drop_indexDifference.1 hdropped).2
    (List.mem_map_of_mem ((mem_add_indexDifference ho).1 hi).1)

/-- Indexes are dropped before any is added. -/
theorem pairwise_precedes_indexOperations {declared observed : List Index}
    (hd : (declared.map Index.name).Nodup) (ho : (observed.map Index.name).Nodup) :
    (indexOperations {} path (indexDifference declared observed) observed).Pairwise Precedes := by
  rw [indexOperations, if_pos rfl, ← List.map_append]
  refine pairwise_precedes_append 2 (pairwise_precedes_map (nodup_droppedIndexes hd ho) ?_ ?_)
    (pairwise_precedes_map (hd.of_map.sublist List.filter_sublist) ?_ ?_) ?_ ?_
  · exact fun _ _ h => (Operation.dropIndex.inj h).2
  · exact fun _ _ => rfl
  · exact fun _ _ h => (Operation.addIndex.inj h).2
  · exact fun _ _ => rfl
  · exact List.forall_mem_map.2 fun _ _ => Nat.one_lt_two
  · exact List.forall_mem_map.2 fun _ _ => Nat.le_refl 2

theorem pairwise_precedes_changefeedOperations {declared observed : List Changefeed}
    (hd : (declared.map Changefeed.name).Nodup) (ho : (observed.map Changefeed.name).Nodup) :
    (changefeedOperations path (changefeedDifference declared observed)).Pairwise Precedes := by
  have hdrop : (changefeedDifference declared observed).drop.Nodup :=
    ho.sublist (List.filter_sublist.map _)
  refine pairwise_precedes_append 4 (pairwise_precedes_map hdrop ?_ ?_)
    (pairwise_precedes_map (hd.of_map.sublist List.filter_sublist) ?_ ?_) ?_ ?_
  · exact fun _ _ h => (Operation.dropChangefeed.inj h).2
  · exact fun _ _ => rfl
  · exact fun _ _ h => (Operation.addChangefeed.inj h).2
  · exact fun _ _ => rfl
  · exact List.forall_mem_map.2 fun _ _ => Nat.lt_succ_self 3
  · exact List.forall_mem_map.2 fun _ _ => Nat.le_refl 4

/-- The time to live is reset after settings are set. -/
theorem pairwise_precedes_settingsOperations (options : PlanOptions) (d : SettingsDifference) :
    (settingsOperations options path d).Pairwise Precedes := by
  unfold settingsOperations
  split
  · refine pairwise_precedes_append 6 ?_ ?_ ?_ ?_
    all_goals split <;> simp [Operation.stage]
  · exact .nil

end Blocks

/-! ## The whole plan -/

section Stages

variable {options : PlanOptions} {path : String} {operation : Operation}

theorem stage_of_mem_addColumns {columns : List Column}
    (h : operation ∈ columns.map (Operation.addColumn path)) : operation.stage < 1 := by
  obtain ⟨c, -, rfl⟩ := List.mem_map.1 h
  exact Nat.one_pos

/-- Operations on indexes come after columns and before changefeeds. -/
theorem stage_of_mem_indexOperations {d : IndexDifference} {observed : List Index}
    (h : operation ∈ indexOperations options path d observed) :
    1 ≤ operation.stage ∧ operation.stage < 3 := by
  simp only [indexOperations, List.mem_append, List.mem_map] at h
  rcases h with (⟨name, -, rfl⟩ | h) | ⟨i, -, rfl⟩
  · simp [Operation.stage]
  · split at h
    · obtain ⟨name, -, rfl⟩ := List.mem_map.1 h
      simp [Operation.stage]
    · exact absurd h List.not_mem_nil
  · simp [Operation.stage]

theorem stage_of_mem_changefeedOperations {d : ChangefeedDifference}
    (h : operation ∈ changefeedOperations path d) :
    3 ≤ operation.stage ∧ operation.stage < 5 := by
  simp only [changefeedOperations, List.mem_append, List.mem_map] at h
  rcases h with ⟨name, -, rfl⟩ | ⟨f, -, rfl⟩
  · simp [Operation.stage]
  · simp [Operation.stage]

/-- Settings come last. -/
theorem stage_of_mem_settingsOperations {d : SettingsDifference}
    (h : operation ∈ settingsOperations options path d) : 5 ≤ operation.stage := by
  unfold settingsOperations at h
  split at h
  · rcases List.mem_append.1 h with h | h
    · rw [List.mem_ite_nil_left, List.mem_singleton] at h
      rw [h.2]
      exact Nat.le_refl 5
    · rw [List.mem_ite_nil_right, List.mem_singleton] at h
      rw [h.2]
      exact Nat.le_succ 5
  · exact absurd h List.not_mem_nil

end Stages

/-- A plan goes through the stages in order and repeats no operation. -/
theorem pairwise_precedes_tableOperations {declared observed : Table} {operations : List Operation}
    (hcolumns : declared.columnNames.Nodup) (hd : declared.DistinctNames)
    (ho : observed.DistinctNames) (h : tableOperations {} declared observed = .ok operations) :
    operations.Pairwise Precedes := by
  obtain ⟨columns, hadded, rfl⟩ := tableOperations_eq_ok_iff.1 h
  obtain ⟨-, rfl⟩ := columnsToAdd_eq_ok_iff.1 hadded
  have hcolumn := pairwise_precedes_addColumns declared.path
    (hcolumns.of_map.sublist (List.filter_sublist (p := fun c =>
      c.name ∉ observed.columns.map Column.name)))
  have hindex := pairwise_precedes_indexOperations declared.path hd.indexes ho.indexes
  have hfeed := pairwise_precedes_changefeedOperations declared.path hd.changefeeds ho.changefeeds
  have hsettings := pairwise_precedes_settingsOperations declared.path {}
    (settingsDifference declared.settings observed.settings)
  refine pairwise_precedes_append 5 (pairwise_precedes_append 3 (pairwise_precedes_append 1
    hcolumn hindex (fun _ => stage_of_mem_addColumns) ?_) hfeed ?_ ?_) hsettings ?_ ?_
  · exact fun o ho => (stage_of_mem_indexOperations ho).1
  · exact List.forall_mem_append.2
      ⟨fun o ho => Nat.lt_trans (stage_of_mem_addColumns ho) (by decide),
        fun o ho => (stage_of_mem_indexOperations ho).2⟩
  · exact fun o ho => (stage_of_mem_changefeedOperations ho).1
  · refine List.forall_mem_append.2 ⟨List.forall_mem_append.2 ⟨fun o ho => ?_, fun o ho => ?_⟩,
      fun o ho => (stage_of_mem_changefeedOperations ho).2⟩
    · exact Nat.lt_trans (stage_of_mem_addColumns ho) (by decide)
    · exact Nat.lt_trans (stage_of_mem_indexOperations ho).2 (by decide)
  · exact fun o ho => stage_of_mem_settingsOperations ho

end SchemaPlan
