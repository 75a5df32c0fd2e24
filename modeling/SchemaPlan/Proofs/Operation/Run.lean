import Mathlib.Data.List.Nodup
import SchemaPlan.Operation.Executable

/-!
# Running operations on a table

The effect of a run of operations of one kind (`afterAll_addColumns`, `afterAll_dropIndexes`, …),
and when such a run can be executed (`executes_addColumns`, `executes_dropIndexes`, …) : names to
add are distinct and new, names to drop are distinct and there. `executes_append` puts runs
together, and `executable_of_executes` reads off the state before any one operation.
-/

namespace SchemaPlan

namespace Table

variable (t : Table) (path : String)

/-! ## Effects of runs -/

@[simp] theorem afterAll_nil : t.afterAll [] = t :=
  rfl

@[simp] theorem afterAll_cons (operation : Operation) (operations : List Operation) :
    t.afterAll (operation :: operations) = (operation.onTable t).afterAll operations :=
  rfl

/-- A run is made in two parts. -/
theorem afterAll_append (first second : List Operation) :
    t.afterAll (first ++ second) = (t.afterAll first).afterAll second :=
  List.foldl_append

/-- Columns are added behind those that are there, in order. -/
theorem afterAll_addColumns (columns : List Column) :
    t.afterAll (columns.map (.addColumn path)) = { t with columns := t.columns ++ columns } := by
  induction columns generalizing t with
  | nil => simp
  | cons c columns ih => simp [ih, Operation.onTable, addColumn]

/-- Indexes are dropped by name. -/
theorem afterAll_dropIndexes (names : List String) :
    t.afterAll (names.map (.dropIndex path)) =
      { t with indexes := t.indexes.filter fun i => i.name ∉ names } := by
  induction names generalizing t with
  | nil => simp
  | cons name names ih =>
    rw [List.map_cons, afterAll_cons, ih]
    simp only [Operation.onTable, List.filter_filter, List.mem_cons, not_or, Bool.decide_and,
      Bool.and_comm, ne_eq]

theorem afterAll_addIndexes (indexes : List Index) :
    t.afterAll (indexes.map (.addIndex path)) = { t with indexes := t.indexes ++ indexes } := by
  induction indexes generalizing t with
  | nil => simp
  | cons i indexes ih => simp [ih, Operation.onTable, addIndex]

theorem afterAll_dropChangefeeds (names : List String) :
    t.afterAll (names.map (.dropChangefeed path)) =
      { t with changefeeds := t.changefeeds.filter fun f => f.name ∉ names } := by
  induction names generalizing t with
  | nil => simp
  | cons name names ih =>
    rw [List.map_cons, afterAll_cons, ih]
    simp only [Operation.onTable, List.filter_filter, List.mem_cons, not_or, Bool.decide_and,
      Bool.and_comm, ne_eq]

theorem afterAll_addChangefeeds (feeds : List Changefeed) :
    t.afterAll (feeds.map (.addChangefeed path)) =
      { t with changefeeds := t.changefeeds ++ feeds } := by
  induction feeds generalizing t with
  | nil => simp
  | cons f feeds ih => simp [ih, Operation.onTable, addChangefeed]

/-! ## Runs that can be executed -/

/-- A run can be executed if its second part can after its first. -/
theorem executes_append {first second : List Operation} :
    t.Executes (first ++ second) ↔ t.Executes first ∧ (t.afterAll first).Executes second := by
  induction first generalizing t with
  | nil => simp [Executes]
  | cons operation first ih => simp [Executes, ih, and_assoc]

/-- In a run that can be executed, each operation is executable in the state before it. -/
theorem executable_of_executes {before after : List Operation} {operation : Operation}
    (h : t.Executes (before ++ operation :: after)) : operation.Executable (t.afterAll before) :=
  ((executes_append t).1 h).2.1

section Parts

variable {α : Type} (nameOf : α → String) (part : Table → List α)

/-- Drops can be executed if they remove the entries of distinct names that are there. -/
theorem executes_drops {drop : String → Operation} {names : List String}
    (heffect : ∀ t name, part ((drop name).onTable t) = (part t).filter fun a => nameOf a ≠ name)
    (hdrop : ∀ t name, name ∈ (part t).map nameOf → (drop name).Executable t)
    (hnodup : names.Nodup) (hthere : ∀ name ∈ names, name ∈ (part t).map nameOf) :
    t.Executes (names.map drop) := by
  induction names generalizing t with
  | nil => trivial
  | cons name names ih =>
    rw [List.nodup_cons] at hnodup
    refine ⟨hdrop t name (hthere name List.mem_cons_self), ih _ hnodup.2 fun other ho => ?_⟩
    obtain ⟨a, ha, rfl⟩ := List.mem_map.1 (hthere other (List.mem_cons_of_mem name ho))
    have hne : nameOf a ≠ name := fun h => hnodup.1 (h ▸ ho)
    rw [heffect]
    exact List.mem_map_of_mem (List.mem_filter.2 ⟨ha, by simpa using hne⟩)

/-- Additions can be executed if they append entries of distinct names that are not there, and
whatever else they need (`Ready`) is there and stays. -/
theorem executes_adds (Ready : Table → α → Prop) {add : α → Operation} {entries : List α}
    (heffect : ∀ t a, part ((add a).onTable t) = part t ++ [a])
    (hadd : ∀ t a, nameOf a ∉ (part t).map nameOf → Ready t a → (add a).Executable t)
    (hstays : ∀ t a b, Ready t b → Ready ((add a).onTable t) b)
    (hnodup : (entries.map nameOf).Nodup) (hnew : ∀ a ∈ entries, nameOf a ∉ (part t).map nameOf)
    (hready : ∀ a ∈ entries, Ready t a) : t.Executes (entries.map add) := by
  induction entries generalizing t with
  | nil => trivial
  | cons a entries ih =>
    rw [List.map_cons, List.nodup_cons] at hnodup
    obtain ⟨hnewa, hnew⟩ := List.forall_mem_cons.1 hnew
    obtain ⟨hreadya, hready⟩ := List.forall_mem_cons.1 hready
    refine ⟨hadd t a hnewa hreadya, ih _ hnodup.2 (fun b hb hin => ?_) fun b hb =>
      hstays t a b (hready b hb)⟩
    rw [heffect, List.map_append, List.mem_append, List.map_singleton, List.mem_singleton] at hin
    rcases hin with hin | hin
    · exact hnew b hb hin
    · exact hnodup.1 (hin ▸ List.mem_map_of_mem hb)

end Parts

variable {t}

/-- Columns can be added if their names are new and distinct. -/
theorem executes_addColumns {added : List Column} (hnodup : (added.map Column.name).Nodup)
    (hnew : ∀ c ∈ added, c.name ∉ t.columnNames) :
    t.Executes (added.map (.addColumn path)) :=
  executes_adds t Column.name columns (fun _ _ => True) (fun _ _ => rfl) (fun _ _ h _ => h)
    (fun _ _ _ => id) hnodup hnew fun _ _ => trivial

/-- Indexes can be dropped if they are there, each once. -/
theorem executes_dropIndexes {names : List String} (hnodup : names.Nodup)
    (hthere : ∀ name ∈ names, name ∈ t.indexes.map Index.name) :
    t.Executes (names.map (.dropIndex path)) :=
  executes_drops t Index.name indexes (fun _ _ => rfl) (fun _ _ h => h) hnodup hthere

/-- Indexes can be added if their names are new and distinct and their columns are there. -/
theorem executes_addIndexes {added : List Index} (hnodup : (added.map Index.name).Nodup)
    (hnew : ∀ i ∈ added, i.name ∉ t.indexes.map Index.name)
    (hcolumns : ∀ i ∈ added, ∀ column ∈ i.columns ++ i.cover, column ∈ t.columnNames) :
    t.Executes (added.map (.addIndex path)) :=
  executes_adds t Index.name indexes
    (fun t i => ∀ column ∈ i.columns ++ i.cover, column ∈ t.columnNames) (fun _ _ => rfl)
    (fun _ _ hname hready => ⟨hname, hready⟩) (fun _ _ _ => id) hnodup hnew hcolumns

theorem executes_dropChangefeeds {names : List String} (hnodup : names.Nodup)
    (hthere : ∀ name ∈ names, name ∈ t.changefeeds.map Changefeed.name) :
    t.Executes (names.map (.dropChangefeed path)) :=
  executes_drops t Changefeed.name changefeeds (fun _ _ => rfl) (fun _ _ h => h) hnodup hthere

theorem executes_addChangefeeds {feeds : List Changefeed}
    (hnodup : (feeds.map Changefeed.name).Nodup)
    (hnew : ∀ f ∈ feeds, f.name ∉ t.changefeeds.map Changefeed.name) :
    t.Executes (feeds.map (.addChangefeed path)) :=
  executes_adds t Changefeed.name changefeeds (fun _ _ => True) (fun _ _ => rfl)
    (fun _ _ h _ => h) (fun _ _ _ => id) hnodup hnew fun _ _ => trivial

end Table

end SchemaPlan
