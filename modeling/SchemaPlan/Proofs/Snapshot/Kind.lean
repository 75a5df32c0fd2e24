import SchemaPlan.Proofs.Named
import SchemaPlan.Proofs.Snapshot.File
import SchemaPlan.Proofs.Step
import SchemaPlan.Proofs.Table.Json
import SchemaPlan.Proofs.Topic.Json

/-!
# Kinds of stored objects

A snapshot does not say of which kind its object is : what is asked for is found if the fields that
it must have are there. The document of a topic has no columns, so it is read as no table
(`Table.ofJson?_toJson_topic`), but all that a topic must have is a path, so the document of a table
is read as a topic of which only the path is known (`Topic.ofJson?_toJson_table`).

`snapshots_of_kind` : over snapshots, a table is found exactly where one is stored, as it is in a
store, and a topic is found wherever an object is stored. A stored topic is found with the read
positions that are read from their texts.
-/

namespace SchemaPlan

open Json Value

/-! ## Documents of the other kind -/

/-- A table is read as a topic of which only the path is known. -/
theorem Topic.ofJson?_toJson_table (t : Table) :
    Topic.ofJson? t.toJson = some { path := t.path } := by
  obtain ⟨fields, hfields, hlookup⟩ := t.isRecord_toJson.exists_fields? (by decide) fieldNames
  have hpath : fields.lookup "path" = some (.string t.path) := by
    rw [hlookup _ (by decide)]
    rfl
  have habsent : ∀ key ∈ fieldNames, key ∉ Table.fieldNames → fields.lookup key = none :=
    fun key hkey hnot => (hlookup key hkey).trans (t.isRecord_toJson.lookup_eq_none hnot)
  rw [ofJson?, hfields]
  simp [hpath, habsent "partitions_count" (by decide) (by decide),
    habsent "retention_period" (by decide) (by decide),
    habsent "supported_codecs" (by decide) (by decide),
    habsent "consumers" (by decide) (by decide), ReadsBack.string.form_write]

/-- A topic is not read as a table: it has no columns. -/
theorem Table.ofJson?_toJson_topic (t : Topic) : Table.ofJson? t.toJson = none := by
  obtain ⟨fields, hfields, hlookup⟩ := t.isRecord_toJson.exists_fields? (by decide) fieldNames
  have hcolumns : fields.lookup "columns" = none :=
    (hlookup _ (by decide)).trans (t.isRecord_toJson.lookup_eq_none (by decide))
  rw [ofJson?, hfields, Option.bind_eq_bind, Option.bind_some]
  -- whatever the path is, the columns are looked up next
  refine Option.bind_eq_none_iff.2 fun path _ => ?_
  rw [Fields.required?_eq_bind, hcolumns]
  rfl

namespace Stored

/-- The document of an object is read as what is written of it. -/
theorem read?_document (object : Stored) : read? object.document = some object.toJson := by
  refine read?_write ?_
  cases object with
  | table t => exact Table.readsBack.onlyNaturals t
  | topic t => exact Topic.readsAs.onlyNaturals t

/-- A table is read from the document of a table alone. -/
theorem table_of_document (object : Stored) :
    (read? object.document).bind Table.ofJson? = object.table? := by
  rw [read?_document, Option.bind_some]
  cases object with
  | table t => exact Table.readsBack.form_write t
  | topic t => exact Table.ofJson?_toJson_topic t

/-- A topic is read from the document of any object. -/
theorem topic_of_document (object : Stored) :
    (read? object.document).bind Topic.ofJson? = some object.asTopic := by
  rw [read?_document, Option.bind_some]
  cases object with
  | table t => exact Topic.ofJson?_toJson_table t
  | topic t => exact Topic.readsAs.form_write t

/-! ## Looking up -/

section Lookup

variable {α : Type} {kind? : Stored → Option α} {objects : List (String × Stored)} {path : String}

@[simp] theorem table?_eq_some_iff {object : Stored} {t : Table} :
    object.table? = some t ↔ object = .table t := by
  cases object <;> simp [table?]

@[simp] theorem topic?_eq_some_iff {object : Stored} {t : Topic} :
    object.topic? = some t ↔ object = .topic t := by
  cases object <;> simp [topic?]

/-- The objects of a kind are those that are of it. -/
theorem mem_ofKind {a : α} :
    (path, a) ∈ ofKind kind? objects ↔
      ∃ object, (path, object) ∈ objects ∧ kind? object = some a := by
  simp [ofKind]

/-- Where each path has one object, the objects of a kind have distinct paths. -/
theorem nodup_ofKind (kind? : Stored → Option α) (hnodup : (objects.map Prod.fst).Nodup) :
    ((ofKind kind? objects).map Prod.fst).Nodup := by
  refine nodup_map_filterMap hnodup fun object _ object' _ e he e' he' heq => ?_
  obtain ⟨_, -, rfl⟩ := Option.map_eq_some_iff.1 he
  obtain ⟨_, -, rfl⟩ := Option.map_eq_some_iff.1 he'
  exact heq

section Store

variable (hnodup : (objects.map Prod.fst).Nodup)

include hnodup

/-- A store has the objects of a kind in the map of that kind. -/
theorem describe_store_eq_some_iff {a : α} :
    (store objects).describe (ofKind kind? objects) path = .ok (some a) ↔
      ∃ object, (path, object) ∈ objects ∧ kind? object = some a := by
  have hdescribe : (store objects).describe (ofKind kind? objects) path =
      .ok ((ofKind kind? objects).lookup path) := rfl
  rw [hdescribe, Except.ok.injEq, lookup_eq_some_iff_mem (nodup_ofKind kind? hnodup), mem_ofKind]

/-- In the store, a table is described at its path and nowhere else. -/
theorem observer_table_eq_some_iff {t : Table} :
    (store objects).observer.table path = .ok (some t) ↔ (path, .table t) ∈ objects :=
  (describe_store_eq_some_iff hnodup).trans (by simp)

theorem observer_topic_eq_some_iff {t : Topic} :
    (store objects).observer.topic path = .ok (some t) ↔ (path, .topic t) ∈ objects :=
  (describe_store_eq_some_iff hnodup).trans (by simp)

end Store

end Lookup

end Stored

namespace Snapshot

variable {α : Type} {form : Value → Option α} {objects : List (String × Stored)}
  {read : String → Reading} {root path : String}

/-- Something is described exactly if its text has the form that is asked for. -/
theorem decode_eq_some_iff {reading : Reading} {a : α} :
    decode form path reading = .ok (some a) ↔
      ∃ text, reading = .content text ∧ (Json.read? text).bind form = some a := by
  cases reading with
  | missing => simp [decode]
  | unreadable => simp [decode]
  | content text =>
    rw [decode]
    cases hread : (Json.read? text).bind form <;> simp [hread]

/-- The file of an absolute path has a content exactly if an object is stored at the path. -/
theorem Keeps.read_eq_content_iff (hkeeps : Keeps read root objects)
    (hpaths : ∀ object ∈ objects, IsAbsolute object.1) (hpath : IsAbsolute path) {name : String}
    (hname : file root path = .ok name) {text : String} :
    read name = .content text ↔ ∃ object, (path, object) ∈ objects ∧ object.document = text := by
  constructor
  · intro hread
    obtain ⟨⟨path', object⟩, hmem, hname'⟩ :=
      hkeeps.written_of_read path hpath name text hname hread
    obtain rfl := (file_inj (hpaths _ hmem) hpath).1 (hname'.trans hname.symm)
    have hwritten := hkeeps.read_written path' object hmem name hname
    exact ⟨object, hmem, Reading.content.inj (hwritten.symm.trans hread)⟩
  · rintro ⟨object, hmem, rfl⟩
    exact hkeeps.read_written path object hmem name hname

/-- An object is described by what its file holds. -/
theorem describe_eq_decode {name : String} (hname : file root path = .ok name) :
    describe (m := Id) read form root path = decode form path (read name) := by
  rw [describe, hname]
  rfl

section Kept

variable (hkeeps : Keeps read root objects) (hpaths : ∀ object ∈ objects, IsAbsolute object.1)
  (hpath : IsAbsolute path)

include hkeeps hpaths hpath

/-- What is found at a path is what is read from the document of the object that is stored there. -/
theorem describe_eq_some_iff {a : α} :
    describe (m := Id) read form root path = .ok (some a) ↔
      ∃ object, (path, object) ∈ objects ∧ (Json.read? object.document).bind form = some a := by
  obtain ⟨name, hname⟩ := exists_file hpath root
  rw [describe_eq_decode hname, decode_eq_some_iff]
  simp only [hkeeps.read_eq_content_iff hpaths hpath hname]
  constructor
  · rintro ⟨text, ⟨object, hmem, rfl⟩, hform⟩
    exact ⟨object, hmem, hform⟩
  · rintro ⟨object, hmem, hform⟩
    exact ⟨_, ⟨object, hmem, rfl⟩, hform⟩

/-- Snapshots describe exactly the stored tables, each at its path. -/
theorem table_eq_some_iff {t : Table} :
    (observer (m := Id) read root).table path = .ok (some t) ↔ (path, .table t) ∈ objects := by
  rw [observer, describe_eq_some_iff hkeeps hpaths hpath]
  simp only [Stored.table_of_document, Stored.table?_eq_some_iff, exists_eq_right]

/-- A topic is found where one is stored, as it is read, and where a table is stored. -/
theorem topic_eq_some_iff {t : Topic} :
    (observer (m := Id) read root).topic path = .ok (some t) ↔
      (∃ u, (path, .topic u) ∈ objects ∧ t = u.asRead) ∨
        ∃ u, (path, .table u) ∈ objects ∧ t = { path := u.path } := by
  rw [observer, describe_eq_some_iff hkeeps hpaths hpath]
  simp only [Stored.topic_of_document, Option.some.injEq]
  constructor
  · rintro ⟨object, hmem, rfl⟩
    cases object with
    | table u => exact .inr ⟨u, hmem, rfl⟩
    | topic u => exact .inl ⟨u, hmem, rfl⟩
  · rintro (⟨u, hmem, rfl⟩ | ⟨u, hmem, rfl⟩)
    · exact ⟨_, hmem, rfl⟩
    · exact ⟨_, hmem, rfl⟩

/-- A stored topic is found as it is exactly if its read positions are read as they are. -/
theorem topic_eq_some_stored_iff (hnodup : (objects.map Prod.fst).Nodup) {t : Topic}
    (hmem : (path, .topic t) ∈ objects) :
    (observer (m := Id) read root).topic path = .ok (some t) ↔
      ∀ c ∈ t.consumers, c.readFrom.LeapEndsMinute := by
  have honly : ∀ object, (path, object) ∈ objects → object = .topic t := fun object h =>
    (Prod.mk.inj (List.inj_on_of_nodup_map hnodup h hmem rfl)).2
  rw [topic_eq_some_iff hkeeps hpaths hpath, ← Topic.asRead_eq_self_iff]
  constructor
  · rintro (⟨u, hu, hread⟩ | ⟨u, hu, -⟩)
    · obtain rfl := Stored.topic.inj (honly _ hu)
      exact hread.symm
    · cases honly _ hu
  · exact fun hread => .inl ⟨t, hmem, hread.symm⟩

/-- Where a topic is stored, looking for a table fails. -/
theorem table_eq_error_of_topic {t : Topic} (hmem : (path, .topic t) ∈ objects) :
    (observer (m := Id) read root).table path = .error (.undescribed path .malformed) := by
  obtain ⟨name, hname⟩ := exists_file hpath root
  have hread := (hkeeps.read_eq_content_iff hpaths hpath hname).2 ⟨_, hmem, rfl⟩
  rw [observer]
  simp only
  rw [describe_eq_decode hname, hread, decode, Stored.table_of_document]
  rfl

end Kept

/-! ## A file system that keeps the snapshots -/

/-- The files of the snapshots of the objects. -/
def files (root : String) (objects : List (String × Stored)) : List (String × String) :=
  objects.filterMap fun object =>
    match file root object.1 with
    | .ok name => some (name, object.2.document)
    | .error _ => none

/-- What comes of reading one of some files. -/
def reading (files : List (String × String)) (name : String) : Reading :=
  match files.lookup name with
  | some text => .content text
  | none => .missing

/-- The files are the documents of the objects, each under the name for its path. -/
theorem mem_files {name text : String} : (name, text) ∈ files root objects ↔
    ∃ path object, (path, object) ∈ objects ∧ file root path = .ok name ∧
      object.document = text := by
  rw [files, List.mem_filterMap]
  constructor
  · rintro ⟨⟨path, object⟩, hmem, hfile⟩
    split at hfile
    · next hname =>
      obtain ⟨rfl, rfl⟩ := Prod.mk.inj (Option.some.inj hfile)
      exact ⟨path, object, hmem, hname, rfl⟩
    · cases hfile
  · rintro ⟨path, object, hmem, hname, rfl⟩
    exact ⟨(path, object), hmem, by rw [hname]⟩

/-- Objects at distinct absolute paths are written to distinct files. -/
theorem nodup_files (root : String) (hpaths : ∀ object ∈ objects, IsAbsolute object.1)
    (hnodup : (objects.map Prod.fst).Nodup) : ((files root objects).map Prod.fst).Nodup := by
  refine nodup_map_filterMap hnodup fun object hmem object' hmem' e he e' he' heq => ?_
  split at he
  · next name hname =>
    split at he'
    · next name' hname' =>
      obtain rfl := Option.some.inj he
      obtain rfl := Option.some.inj he'
      obtain rfl : name = name' := heq
      exact (file_inj (hpaths _ hmem) (hpaths _ hmem')).1 (hname.trans hname'.symm)
    · cases he'
  · cases he

/-- Whatever is stored at distinct absolute paths, there are files that keep the snapshots. -/
theorem keeps_reading (root : String) (hpaths : ∀ object ∈ objects, IsAbsolute object.1)
    (hnodup : (objects.map Prod.fst).Nodup) :
    Keeps (reading (files root objects)) root objects where
  read_written path object hmem name hname := by
    have hlookup := (lookup_eq_some_iff_mem (nodup_files root hpaths hnodup)).2
      (mem_files.2 ⟨path, object, hmem, hname, rfl⟩)
    rw [reading, hlookup]
  written_of_read path _ name text _ hread := by
    rw [reading] at hread
    split at hread
    · next hlookup =>
      rw [lookup_eq_some_iff_mem (nodup_files root hpaths hnodup)] at hlookup
      obtain ⟨path', object, hmem, hname, -⟩ := mem_files.1 hlookup
      exact ⟨(path', object), hmem, hname⟩
    · cases hread

end Snapshot

/-! ## Confirming -/

namespace Planner

variable {planner : Planner Id} {a : Address} {handle : String}

/-- A handle is confirmed exactly if the object is found, and then it is the one of the address. -/
theorem confirm_eq_pure_iff {α : Type} {found : Except Error (Option α)} :
    (do Planner.confirm a (← (ExceptT.mk found : ExceptT Error Id (Option α)))) =
      (pure handle : ExceptT Error Id String) ↔
        (∃ x, found = .ok (some x)) ∧ a.handle = handle := by
  cases found with
  | error e =>
    have hne : (Except.error e : Except Error String) ≠ .ok handle := nofun
    exact iff_of_false hne (by simp)
  | ok observed =>
    cases observed with
    | none =>
      have hne : (Except.error (.notCreated a.fullPath) : Except Error String) ≠ .ok handle := nofun
      exact iff_of_false hne (by simp)
    | some x =>
      have hok : (Except.ok a.handle : Except Error String) = .ok handle ↔ a.handle = handle :=
        ⟨Except.ok.inj, congrArg _⟩
      exact hok.trans (by simp)

theorem confirmTable_eq_pure_iff : planner.confirmTable a = pure handle ↔
    (∃ t, planner.observer.table a.fullPath = .ok (some t)) ∧ a.handle = handle :=
  confirm_eq_pure_iff

theorem confirmTopic_eq_pure_iff : planner.confirmTopic a = pure handle ↔
    (∃ t, planner.observer.topic a.fullPath = .ok (some t)) ∧ a.handle = handle :=
  confirm_eq_pure_iff

end Planner

namespace Snapshot

variable {objects : List (String × Stored)} {read : String → Reading} {root : String}

/-- Over the snapshots of stored objects, a table is found exactly where it is stored, and a topic
where it is stored, as it is read, or where a table is, as a topic of which only the path is known;
looking for a table where a topic is stored fails. A stored topic is found as it is exactly if none
of its read positions is a leap second inside a minute. So tables are confirmed as they are over a
store of the same objects, and topics are confirmed where a store has an object of either kind. -/
theorem snapshots_of_kind (hpaths : ∀ object ∈ objects, IsAbsolute object.1)
    (hnodup : (objects.map Prod.fst).Nodup) (hkeeps : Keeps read root objects) :
    (∀ path, IsAbsolute path →
      (∀ t, (observer (m := Id) read root).table path = .ok (some t) ↔
        (path, .table t) ∈ objects) ∧
      (∀ t, (observer (m := Id) read root).topic path = .ok (some t) ↔
        (∃ u, (path, .topic u) ∈ objects ∧ t = u.asRead) ∨
          ∃ u, (path, .table u) ∈ objects ∧ t = { path := u.path }) ∧
      ∀ t, (path, .topic t) ∈ objects →
        (observer (m := Id) read root).table path = .error (.undescribed path .malformed) ∧
        ((observer (m := Id) read root).topic path = .ok (some t) ↔
          ∀ c ∈ t.consumers, c.readFrom.LeapEndsMinute)) ∧
    ∀ (planner : Planner Id) (a : Address), IsAbsolute a.fullPath → ∀ handle,
      ((planner.withObserver (observer (m := Id) read root)).confirmTable a = pure handle ↔
        (planner.withObserver (Stored.store objects).observer).confirmTable a = pure handle) ∧
      ((planner.withObserver (observer (m := Id) read root)).confirmTopic a = pure handle ↔
        (planner.withObserver (Stored.store objects).observer).confirmTopic a = pure handle ∨
        (planner.withObserver (Stored.store objects).observer).confirmTable a = pure handle) := by
  refine ⟨fun path hpath => ⟨fun t => table_eq_some_iff hkeeps hpaths hpath,
    fun t => topic_eq_some_iff hkeeps hpaths hpath,
    fun t hmem => ⟨table_eq_error_of_topic hkeeps hpaths hpath hmem,
      topic_eq_some_stored_iff hkeeps hpaths hpath hnodup hmem⟩⟩, fun planner a ha handle => ?_⟩
  simp only [Planner.confirmTable_eq_pure_iff, Planner.confirmTopic_eq_pure_iff,
    Planner.withObserver, table_eq_some_iff hkeeps hpaths ha, topic_eq_some_iff hkeeps hpaths ha,
    Stored.observer_table_eq_some_iff hnodup, Stored.observer_topic_eq_some_iff hnodup, true_and]
  rw [← or_and_right]
  refine and_congr_left' ?_
  constructor
  · rintro ⟨t, ⟨u, hmem, -⟩ | ⟨u, hmem, -⟩⟩
    · exact .inl ⟨u, hmem⟩
    · exact .inr ⟨u, hmem⟩
  · rintro (⟨u, hmem⟩ | ⟨u, hmem⟩)
    · exact ⟨_, .inl ⟨u, hmem, rfl⟩⟩
    · exact ⟨_, .inr ⟨u, hmem, rfl⟩⟩

/-- A table of users. -/
def users : Table where
  path := "dir/users"
  columns := [⟨"id", "Uint64", none, false⟩]
  primaryKey := ["id"]

/-- A topic of events, read from a leap second on. -/
def events : Topic where
  path := "dir/events"
  codecs := [.gzip]
  consumers := [⟨"mail", [], ⟨119, 1700000000, by decide, by decide⟩⟩]

/-- A table and a topic, each under its absolute path. -/
def localObjects : List (String × Stored) :=
  [("/local/dir/users", .table users), ("/local/dir/events", .topic events)]

/-- What comes of reading the snapshots of the table and the topic. -/
def readLocal : String → Reading :=
  reading (files "snapshots" localObjects)

/-- Where the table of users is. -/
def usersAddress : Address := ⟨"localhost:2136", false, "/local", "dir/users"⟩

/-- A planner over a store of the table and the topic. -/
def localPlanner : Planner Id where
  observer := (Stored.store localObjects).observer

theorem isAbsolute_users : IsAbsolute "/local/dir/users" :=
  ⟨["local", "dir", "users"], rfl, by decide, by decide⟩

theorem isAbsolute_events : IsAbsolute "/local/dir/events" :=
  ⟨["local", "dir", "events"], rfl, by decide, by decide⟩

theorem isAbsolute_localObjects : ∀ object ∈ localObjects, IsAbsolute object.1 :=
  List.forall_mem_cons.2 ⟨isAbsolute_users, List.forall_mem_singleton.2 isAbsolute_events⟩

theorem keeps_readLocal : Keeps readLocal "snapshots" localObjects :=
  keeps_reading "snapshots" isAbsolute_localObjects (by decide)

/-- Of a table and a topic that are kept, each is found under its own kind, and the topic cannot be
described as a table. -/
theorem snapshots_of_kind_local :
    (∀ object ∈ localObjects, IsAbsolute object.1) ∧ (localObjects.map Prod.fst).Nodup ∧
    Keeps readLocal "snapshots" localObjects ∧ IsAbsolute usersAddress.fullPath ∧
    (observer (m := Id) readLocal "snapshots").table "/local/dir/users" = .ok (some users) ∧
    (observer (m := Id) readLocal "snapshots").topic "/local/dir/events" = .ok (some events) ∧
    (observer (m := Id) readLocal "snapshots").table "/local/dir/events" =
      .error (.undescribed "/local/dir/events" .malformed) ∧
    (localPlanner.withObserver (observer (m := Id) readLocal "snapshots")).confirmTable
      usersAddress = pure usersAddress.handle := by
  obtain ⟨hfound, hconfirmed⟩ :=
    snapshots_of_kind isAbsolute_localObjects (by decide) keeps_readLocal
  obtain ⟨husers, -, -⟩ := hfound _ isAbsolute_users
  obtain ⟨-, -, hevents⟩ := hfound _ isAbsolute_events
  obtain ⟨hrefused, hfoundEvents⟩ := hevents events (by decide)
  exact ⟨isAbsolute_localObjects, by decide, keeps_readLocal, isAbsolute_users,
    (husers users).2 (by decide), hfoundEvents.2 (by decide), hrefused,
    (hconfirmed localPlanner usersAddress isAbsolute_users _).1.2 rfl⟩

/-- Where the table of users is stored, a topic is found and confirmed over the snapshots, and there
is none in the store. -/
theorem topic_found_at_users :
    (observer (m := Id) readLocal "snapshots").topic "/local/dir/users" =
      .ok (some { path := "dir/users" }) ∧
    (∀ t, ("/local/dir/users", .topic t) ∉ localObjects) ∧
    (localPlanner.withObserver (observer (m := Id) readLocal "snapshots")).confirmTopic
      usersAddress = pure usersAddress.handle ∧
    localPlanner.confirmTopic usersAddress = throw (.notCreated "/local/dir/users") := by
  have hfound : (observer (m := Id) readLocal "snapshots").topic "/local/dir/users" =
      .ok (some { path := "dir/users" }) :=
    (topic_eq_some_iff keeps_readLocal isAbsolute_localObjects isAbsolute_users).2
      (.inr ⟨users, by decide, rfl⟩)
  refine ⟨hfound, by simp [localObjects], ?_, rfl⟩
  exact Planner.confirmTopic_eq_pure_iff.2 ⟨⟨_, hfound⟩, rfl⟩

end Snapshot

end SchemaPlan
