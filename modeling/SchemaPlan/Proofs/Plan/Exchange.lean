import SchemaPlan.Proofs.Plan.Preservation

/-!
# Names that a run drops and adds

What all operations of a run keep, the run keeps (`afterAll_keeps`), also from the point on at which
one of them has brought it about (`afterAll_of_mem`). Whether a name of a part of a table is there
in the end depends on the operations about the name only (`Exchange`) : without its addition it is
missing (`Exchange.absent`), and without its drop and an addition it stays (`Exchange.there`). Both
kinds of parts that a plan drops are exchanged in this way (`exchange_indexes`,
`exchange_changefeeds`).
-/

namespace SchemaPlan

variable {declared observed t : Table} {operation : Operation} {operations : List Operation}
  {name : String}

/-! ## What a run keeps -/

/-- What every operation of a run keeps, the run keeps. -/
theorem afterAll_keeps {P : Table → Prop}
    (h : ∀ o ∈ operations, ∀ t, P t → P (o.onTable t)) (ht : P t) : P (t.afterAll operations) := by
  induction operations generalizing t with
  | nil => exact ht
  | cons o operations ih =>
    obtain ⟨hfirst, hrest⟩ := List.forall_mem_cons.1 h
    exact ih hrest (hfirst t ht)

/-- What an operation of a run brings about and all of them keep, holds after the run. -/
theorem afterAll_of_mem {P : Table → Prop} (h : ∀ o ∈ operations, ∀ t, P t → P (o.onTable t))
    (hmem : operation ∈ operations) (hholds : ∀ t, P (operation.onTable t)) (t : Table) :
    P (t.afterAll operations) := by
  obtain ⟨first, rest, rfl⟩ := List.append_of_mem hmem
  rw [Table.afterAll_append, Table.afterAll_cons]
  exact afterAll_keeps (fun o ho => h o (List.mem_append_right _ (List.mem_cons_of_mem _ ho)))
    (hholds _)

/-! ## Names that are dropped and added -/

theorem mem_map_name_iff {α : Type} {nameOf : α → String} {l : List α} :
    name ∈ l.map nameOf ↔ l.filter (fun a => nameOf a = name) ≠ [] := by
  rw [List.mem_map, ne_eq, List.filter_eq_nil_iff]
  simp only [decide_eq_true_eq, not_forall, not_not, exists_prop]

section Exchange

variable {α : Type} (nameOf : α → String) (part : Table → List α) (add : α → Operation)
  (drop : String → Operation) (adds : List α) (operations : List Operation)

/-- In a list of operations, a name of a part of the table appears and disappears only by `drop`
and by `add` of one of the entries `adds`, whose names are distinct. -/
structure Exchange : Prop where
  others : ∀ o ∈ operations, ∀ name, o ≠ drop name → (∀ a ∈ adds, nameOf a = name → o ≠ add a) →
    ∀ t, name ∈ (part (o.onTable t)).map nameOf ↔ name ∈ (part t).map nameOf
  dropped : ∀ t name, name ∉ (part ((drop name).onTable t)).map nameOf
  distinct : (adds.map nameOf).Nodup

variable {nameOf part add drop adds operations}

/-- Without its addition a name is not there, if it was not there before or is dropped. -/
theorem Exchange.absent (h : Exchange nameOf part add drop adds operations) {a : α} (ha : a ∈ adds)
    (hnot : add a ∉ operations)
    (hgone : nameOf a ∈ (part t).map nameOf → drop (nameOf a) ∈ operations) :
    nameOf a ∉ (part (t.afterAll operations)).map nameOf := by
  have hkeep : ∀ o ∈ operations, ∀ t, nameOf a ∉ (part t).map nameOf →
      nameOf a ∉ (part (o.onTable t)).map nameOf := by
    intro o ho t ht
    by_cases hdrop : o = drop (nameOf a)
    · rw [hdrop]
      exact h.dropped t (nameOf a)
    · refine fun hin => ht ((h.others o ho (nameOf a) hdrop ?_ t).1 hin)
      -- an added entry of the name is `a` itself
      rintro b hb hname rfl
      exact hnot (List.inj_on_of_nodup_map h.distinct hb ha hname ▸ ho)
  by_cases ht : nameOf a ∈ (part t).map nameOf
  · exact afterAll_of_mem hkeep (hgone ht) (fun t => h.dropped t (nameOf a)) t
  · exact afterAll_keeps hkeep ht

/-- Without its drop a name that is there stays, if no entry of the name is added. -/
theorem Exchange.there (h : Exchange nameOf part add drop adds operations)
    (hnot : drop name ∉ operations) (hadd : ∀ a ∈ adds, nameOf a = name → add a ∉ operations)
    (ht : name ∈ (part t).map nameOf) : name ∈ (part (t.afterAll operations)).map nameOf := by
  refine afterAll_keeps (P := fun t => name ∈ (part t).map nameOf) (fun o ho t hin => ?_) ht
  refine (h.others o ho name ?_ ?_ t).2 hin
  · rintro rfl
    exact hnot ho
  · rintro a ha hname rfl
    exact hadd a ha hname ho

end Exchange

/-- Other planned operations are about other indexes. -/
theorem Planned.index?_ne_of_ne (h : Planned {} declared observed operation)
    (hdrop : operation ≠ .dropIndex declared.path name)
    (hadd : ∀ i ∈ (indexDifference declared.indexes observed.indexes).add, i.name = name →
      operation ≠ .addIndex declared.path i) : operation.index? ≠ some name := by
  intro habout
  cases h with
  | dropIndex =>
    obtain rfl := Option.some.inj habout
    exact hdrop rfl
  | dropChangedIndex =>
    obtain rfl := Option.some.inj habout
    exact hdrop rfl
  | addIndex hi => exact hadd _ hi (Option.some.inj habout) rfl
  | addColumn => cases habout
  | dropChangefeed => cases habout
  | addChangefeed => cases habout
  | setSettings => cases habout
  | resetTtl => cases habout

theorem Planned.changefeed?_ne_of_ne (h : Planned {} declared observed operation)
    (hdrop : operation ≠ .dropChangefeed declared.path name)
    (hadd : ∀ f ∈ (changefeedDifference declared.changefeeds observed.changefeeds).add,
      f.name = name → operation ≠ .addChangefeed declared.path f) :
    operation.changefeed? ≠ some name := by
  intro habout
  cases h with
  | dropChangefeed =>
    obtain rfl := Option.some.inj habout
    exact hdrop rfl
  | addChangefeed hf => exact hadd _ hf (Option.some.inj habout) rfl
  | addColumn => cases habout
  | dropIndex => cases habout
  | dropChangedIndex => cases habout
  | addIndex => cases habout
  | setSettings => cases habout
  | resetTtl => cases habout

/-- In a plan, indexes come and go by their own operations. -/
theorem exchange_indexes (hd : declared.DistinctNames)
    (hplanned : ∀ o ∈ operations, Planned {} declared observed o) :
    Exchange Index.name Table.indexes (.addIndex declared.path) (.dropIndex declared.path)
      (indexDifference declared.indexes observed.indexes).add operations where
  others o ho name hdrop hadd t := by
    rw [mem_map_name_iff, mem_map_name_iff,
      (hplanned o ho).filter_indexes ((hplanned o ho).index?_ne_of_ne hdrop hadd)]
  dropped t name := by simp [Operation.onTable]
  distinct := hd.indexes.sublist (List.filter_sublist.map _)

theorem exchange_changefeeds (hd : declared.DistinctNames)
    (hplanned : ∀ o ∈ operations, Planned {} declared observed o) :
    Exchange Changefeed.name Table.changefeeds (.addChangefeed declared.path)
      (.dropChangefeed declared.path)
      (changefeedDifference declared.changefeeds observed.changefeeds).add operations where
  others o ho name hdrop hadd t := by
    rw [mem_map_name_iff, mem_map_name_iff,
      (hplanned o ho).filter_changefeeds ((hplanned o ho).changefeed?_ne_of_ne hdrop hadd)]
  dropped t name := by simp [Operation.onTable]
  distinct := hd.changefeeds.sublist (List.filter_sublist.map _)

end SchemaPlan
