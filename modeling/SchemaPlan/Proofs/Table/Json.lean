import SchemaPlan.Proofs.Json.Form
import SchemaPlan.Proofs.Table.Attributes
import SchemaPlan.Table.Json

/-!
# Tables read back from JSON

Every part of a table is read back from what is written of it, and so is the table
(`Table.readsBack`). Each part is written as a record, so the fields that its form asks for are
looked up among the members that are written.
-/

namespace SchemaPlan

open Json Value ReadsBack

/-! ## Columns, indexes and families -/

theorem Column.isRecord_toJson (c : Column) : IsRecord fieldNames c.toJson :=
  .object <| .append (.append
    (.cons (onlyNaturals_string _) (.cons (onlyNaturals_string _) .nil)) (.ifSome string _))
    (.cons (onlyNaturals_bool _) .nil)

theorem Column.readsBack : ReadsBack Column.ofJson? Column.toJson :=
  .record (by decide) isRecord_toJson rfl fun c h => by
    rw [ofJson?, h]
    simp [toJson, members, List.lookup_append, string.form_write, bool.form_write,
      string.getD_map_orNull?]

/-- A kind of index is known by its name. -/
theorem IndexKind.lookup_name (k : IndexKind) : cases.lookup k.name = some k := by
  cases k <;> decide

theorem Index.isRecord_toJson (i : Index) : IsRecord fieldNames i.toJson :=
  .object <| .cons (onlyNaturals_string _) <| .cons (onlyNaturals_string _) <|
    .cons (strings.onlyNaturals _) <| .cons (strings.onlyNaturals _) .nil

theorem Index.readsBack : ReadsBack Index.ofJson? Index.toJson :=
  .record (by decide) isRecord_toJson rfl fun i h => by
    rw [ofJson?, h]
    simp [toJson, members, string.form_write, strings.form_write,
      (case IndexKind.lookup_name).form_write]

theorem Family.isRecord_toJson (f : Family) : IsRecord fieldNames f.toJson :=
  .object <| .cons (onlyNaturals_string _) <| .cons (onlyNaturals_string _) <|
    .cons (onlyNaturals_string _) .nil

theorem Family.readsBack : ReadsBack Family.ofJson? Family.toJson :=
  .record (by decide) isRecord_toJson rfl fun f h => by
    rw [ofJson?, h]
    simp [toJson, members, string.form_write]

/-! ## Settings -/

theorem Ttl.isRecord_toJson (t : Ttl) : IsRecord fieldNames t.toJson :=
  .object <| .cons (onlyNaturals_string _) <| .cons (onlyNaturals_string _) .nil

theorem Ttl.readsBack : ReadsBack Ttl.ofJson? Ttl.toJson :=
  .record (by decide) isRecord_toJson rfl fun t h => by
    rw [ofJson?, h]
    simp [toJson, members, string.form_write]

theorem Partitioning.isRecord_toJson (p : Partitioning) : IsRecord fieldNames p.toJson :=
  .object <| (InOrder.ifSome word _).append (.ifSome word _) |>.append (.ifSome word _)
    |>.append (.ifSome bool _) |>.append (.ifSome bool _) |>.append (.ifSome word _)
    |>.append (.ifAny strings.list _)

theorem Partitioning.readsBack : ReadsBack Partitioning.ofJson? Partitioning.toJson :=
  .record (by decide) isRecord_toJson rfl fun p h => by
    rw [ofJson?, h]
    simp [toJson, members, List.lookup_append, word.getD_map_orNull?, bool.getD_map_orNull?,
      strings.list.getD_map_ite]

theorem Replication.isRecord_toJson (r : Replication) : IsRecord fieldNames r.toJson :=
  .object <| .ifSome string _

theorem Replication.readsBack : ReadsBack Replication.ofJson? Replication.toJson :=
  .record (by decide) isRecord_toJson rfl fun r h => by
    rw [ofJson?, h]
    simp [toJson, members, string.getD_map_orNull?]

/-- Attributes are read back, since they are in the order of their keys. -/
theorem Attributes.readsBack : ReadsBack Attributes.ofJson? Attributes.toJson where
  onlyNaturals a := onlyNaturals_object <| List.forall_mem_map.2 fun e _ => onlyNaturals_string e.2
  form_write a := by
    have hentries : (a.entries.map fun e => (e.1, Value.string e.2)).mapM stringMember? =
        some (a.entries.map fun e => e) := mapM_map_eq_some fun e _ => rfl
    rw [toJson, ofJson?, hentries, List.map_id', Option.map_some, ofList_entries]
  form_null := rfl

/-! ## Changefeeds -/

theorem ChangefeedMode.lookup_name (m : ChangefeedMode) : cases.lookup m.name = some m := by
  cases m <;> decide

theorem ChangefeedFormat.lookup_name (f : ChangefeedFormat) : cases.lookup f.name = some f := by
  cases f <;> decide

theorem Changefeed.isRecord_toJson (f : Changefeed) : IsRecord fieldNames f.toJson :=
  .object <| .append (.append
    (.cons (onlyNaturals_string _) <| .cons (onlyNaturals_string _) <|
      .cons (onlyNaturals_string _) <| .cons (onlyNaturals_bool _) .nil) (.ifSome string _))
    (.cons (onlyNaturals_bool _) .nil)

theorem Changefeed.readsBack : ReadsBack Changefeed.ofJson? Changefeed.toJson :=
  .record (by decide) isRecord_toJson rfl fun f h => by
    rw [ofJson?, h]
    simp [toJson, members, List.lookup_append, string.form_write, bool.form_write,
      string.getD_map_orNull?, (case ChangefeedMode.lookup_name).form_write,
      (case ChangefeedFormat.lookup_name).form_write]

/-! ## Tables -/

/-- A table is written as a record of its fields. -/
theorem Table.isRecord_toJson (t : Table) : IsRecord fieldNames t.toJson := by
  have hattributes : InOrder ["attributes"]
      (if t.attributes.entries.isEmpty then [] else [("attributes", t.attributes.toJson)]) := by
    split
    · exact .absent _
    · exact .cons (Attributes.readsBack.onlyNaturals _) .nil
  have hparts : InOrder ["path", "columns", "primary_key", "indexes", "families"] _ :=
    .cons (onlyNaturals_string t.path) <| .cons (Column.readsBack.list.onlyNaturals t.columns) <|
      .cons (strings.onlyNaturals t.primaryKey) <|
      .cons (Index.readsBack.list.onlyNaturals t.indexes) <|
      .cons (Family.readsBack.list.onlyNaturals t.families) .nil
  exact .object <| hparts.append (.ifSome Ttl.readsBack _)
    |>.append (.ifSome Partitioning.readsBack _) |>.append (.ifSome Replication.readsBack _)
    |>.append hattributes
    |>.append (.cons (Changefeed.readsBack.list.onlyNaturals _) .nil)

/-- Attributes are left out if there are none. -/
theorem Attributes.getD_map_ite (a : Attributes) :
    ((if a.entries = [] then none else some a.toJson).map ofJson?).getD (some .empty) = some a := by
  split
  · next h => exact congrArg some (eq_of_entries (b := a) h.symm)
  · exact readsBack.form_write a

/-- A table is read back. -/
theorem Table.readsBack : ReadsBack Table.ofJson? Table.toJson :=
  .record (by decide) isRecord_toJson rfl fun t h => by
    rw [ofJson?, h]
    simp [toJson, members, List.lookup_append, string.form_write, strings.form_write,
      Column.readsBack.list.form_write, Index.readsBack.list.form_write,
      Family.readsBack.list.form_write, Ttl.readsBack.getD_map_orNull?,
      Partitioning.readsBack.getD_map_orNull?, Replication.readsBack.getD_map_orNull?,
      Attributes.getD_map_ite, Changefeed.readsBack.list.form_write]

end SchemaPlan
