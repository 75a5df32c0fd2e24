import SchemaPlan.Ddl.SettingKey
import SchemaPlan.Proofs.Ddl.StatementReader
import SchemaPlan.Proofs.Plan.Creation
import SchemaPlan.Proofs.Plan.SplitPoint

/-!
# Settings are named once

`settings_named_once` : a statement that alters the settings of a table names each of them once,
and a statement that creates a table does so exactly if no attribute has the key of a setting with a
value. The keys of settings with a value are some of `settingKeys`, in order and so without
repetition (`keys_ownValues_sublist`), and attributes have different keys, but the two are not kept
apart (`statement_setsTwice`).
-/

namespace SchemaPlan

namespace Ddl

section

variable {key : String}

/-- A value that may be absent has at most its key. -/
theorem keys_optionalValue_sublist {α : Type} (key : String) (value : Option α) (f : α → Draft) :
    ((optionalValue key value f).map Prod.fst).Sublist [key] := by
  cases value with
  | none => exact List.nil_sublist _
  | some a => exact .refl _

/-- The key of a value that may be absent is there if the value is. -/
theorem mem_keys_optionalValue {α : Type} {other : String} {value : Option α} {f : α → Draft} :
    key ∈ (optionalValue other value f).map Prod.fst ↔ value.isSome ∧ key = other := by
  cases value with
  | none => simp [optionalValue]
  | some a => simp [optionalValue]

/-- What the settings of a table with the given key are set to, without its attributes. -/
def ownValues (columns : List Column) (s : TableSettings) : List (String × List Piece) :=
  optionalValue "TTL" s.ttl expiry
    ++ partitioningValues columns (s.partitioning.getD {})
    ++ optionalValue replicasKey (s.replication.bind Replication.readReplicas) Draft.text

/-- The keys of all settings of tables. -/
def settingKeys : List String :=
  ["TTL"] ++ (["AUTO_PARTITIONING_BY_LOAD"] ++ ["AUTO_PARTITIONING_BY_SIZE_ENABLED"]
    ++ ["AUTO_PARTITIONING_BY_SIZE"] ++ ["UNIFORM_PARTITIONS"]
    ++ ["AUTO_PARTITIONING_MIN_PARTITIONS_COUNT"] ++ ["AUTO_PARTITIONING_MAX_PARTITIONS_COUNT"]
    ++ ["PARTITION_AT_KEYS"]) ++ [replicasKey]

/-- The settings that have a value are written in one order. -/
theorem keys_ownValues_sublist (columns : List Column) (s : TableSettings) :
    ((ownValues columns s).map Prod.fst).Sublist settingKeys := by
  simp only [ownValues, partitioningValues, settingKeys, List.map_append]
  apply_rules [List.Sublist.append, keys_optionalValue_sublist]

/-- The settings that are not attributes have distinct keys. -/
theorem nodup_keys_ownValues (columns : List Column) (s : TableSettings) :
    ((ownValues columns s).map Prod.fst).Nodup :=
  (keys_ownValues_sublist columns s).nodup (by decide)

theorem isSome_ite_isEmpty {α : Type} {l : List α} :
    (if l.isEmpty then none else some l).isSome ↔ l ≠ [] := by
  cases l <;> simp

/-- A key stands among the settings of a table exactly if they set it. -/
theorem mem_keys_ownValues {columns : List Column} {s : TableSettings} :
    key ∈ (ownValues columns s).map Prod.fst ↔ s.Sets key := by
  simp only [ownValues, partitioningValues, List.map_append, List.mem_append,
    mem_keys_optionalValue, isSome_ite_isEmpty]
  constructor
  · rintro ((⟨h, rfl⟩ | (((((⟨h, rfl⟩ | ⟨h, rfl⟩) | ⟨h, rfl⟩) | ⟨h, rfl⟩) | ⟨h, rfl⟩) | ⟨h, rfl⟩) |
      ⟨h, rfl⟩) | ⟨h, rfl⟩)
    · exact .ttl h
    · exact .byLoad h
    · exact .bySize h
    · exact .sizeThreshold h
    · exact .uniformPartitions h
    · exact .minPartitions h
    · exact .maxPartitions h
    · exact .splitPoints h
    · exact .replicas h
  · intro h
    cases h with
    | ttl h => exact .inl (.inl ⟨h, rfl⟩)
    | byLoad h => simp [h]
    | bySize h => simp [h]
    | sizeThreshold h => simp [h]
    | uniformPartitions h => simp [h]
    | minPartitions h => simp [h]
    | maxPartitions h => simp [h]
    | splitPoints h => simp [h]
    | replicas h => exact .inr ⟨h, rfl⟩

theorem keys_attributeValues (a : Attributes) : (attributeValues a).map Prod.fst = a.keys := by
  rw [attributeValues, List.map_map]
  rfl

/-- The keys that are written are those of the settings with a value, then those of attributes. -/
theorem keys_settingValues (t : Table) : (settingValues t).map Prod.fst =
    (ownValues (t.primaryKey.filterMap t.column?) t.settings).map Prod.fst ++
      t.attributes.keys := by
  rw [← keys_attributeValues, ← List.map_append]
  rfl

/-- A key stands in a creation exactly if a setting or an attribute has it. -/
theorem mem_keys_settingValues {t : Table} : key ∈ (settingValues t).map Prod.fst ↔
    t.settings.Sets key ∨ key ∈ t.attributes.keys := by
  rw [keys_settingValues, List.mem_append, mem_keys_ownValues]

/-- No key is written twice exactly if no attribute has the key of a setting with a value. -/
theorem nodup_keys_settingValues_iff {t : Table} : ((settingValues t).map Prod.fst).Nodup ↔
    ∀ key ∈ t.attributes.keys, ¬t.settings.Sets key := by
  rw [keys_settingValues, List.nodup_append]
  constructor
  · rintro ⟨-, -, hdisjoint⟩ key hkey hsets
    exact hdisjoint key (mem_keys_ownValues.2 hsets) key hkey rfl
  · intro h
    refine ⟨nodup_keys_ownValues _ _, t.attributes.nodup_keys, ?_⟩
    intro key hown other hattribute heq
    exact h other hattribute (heq ▸ mem_keys_ownValues.1 hown)

end

/-- The settings of the statement that alters settings are those that are altered. -/
theorem alteredSettings?_statement {table : String} {set : TableSettings} {s : String}
    (h : (Operation.setTableSettings table set).statement = .ok s) :
    alteredSettings? s = some (settingValues (settingsOnly set)) := by
  obtain ⟨p, hp, -⟩ := map_eq_ok_iff.1 h
  simp only [Operation.phrase, setTableSettings, refuse_eq_ok_iff, bind_eq_ok_iff] at hp
  obtain ⟨entries, hentries, hsome, -⟩ := hp
  have hne := (not_isEmpty_iff_of_realizes (realizes_settingsEntries hentries)).1 hsome
  have hpieces : pieces (Operation.setTableSettings table set).draft =
      pieces (plain "ALTER TABLE ") ++ (.region .name table.toList ::
        (pieces (plain " SET ") ++ pieces (bracketed (Draft.settings [] set)))) := by
    simp [Operation.draft, Draft.alterTable]
  rw [alteredSettings?, (regions?_statement h).1, hpieces]
  simp only [Option.bind_eq_bind, Option.bind_some, afterWord?_append, takeQuoted?_region,
    readEntries?_settings hne]

end Ddl

open Ddl

/-- Every setting has one of the known keys. -/
theorem TableSettings.Sets.mem_settingKeys {s : TableSettings} {key : String} (h : s.Sets key) :
    key ∈ settingKeys :=
  (keys_ownValues_sublist [] s).subset (mem_keys_ownValues.2 h)

/-- Which settings a statement names, and when it names none of them twice. The statement that
creates a table names the settings that have a value and the attributes, each once exactly if no
attribute has the key of a setting with a value; the statement that alters settings names each of
those that have a value once. -/
theorem settings_named_once (t : Table) (table : String) (set : TableSettings) :
    (∀ s, (Operation.createTable t).statement = .ok s →
      ∃ settings, createdSettings? s = some settings ∧
        (∀ key, key ∈ settings.map Prod.fst ↔ t.settings.Sets key ∨ key ∈ t.attributes.keys) ∧
        ((settings.map Prod.fst).Nodup ↔ ∀ key ∈ t.attributes.keys, ¬t.settings.Sets key)) ∧
    ∀ s, (Operation.setTableSettings table set).statement = .ok s →
      ∃ settings, alteredSettings? s = some settings ∧
        (∀ key, key ∈ settings.map Prod.fst ↔ set.Sets key) ∧ (settings.map Prod.fst).Nodup := by
  refine ⟨fun s h => ⟨_, createdSettings?_statement h, fun _ => mem_keys_settingValues,
    nodup_keys_settingValues_iff⟩, fun s h => ⟨_, alteredSettings?_statement h, fun key => ?_,
      nodup_keys_settingValues_iff.2 (List.forall_mem_nil _)⟩⟩
  exact mem_keys_settingValues.trans (or_iff_left List.not_mem_nil)

/-- Settings of `archive` that can be altered. -/
def archiveSettings : TableSettings where
  ttl := some ⟨"seen", "P30D"⟩
  partitioning := some { minPartitions := some 2, byLoad := some true }
  replication := some ⟨some "PER_AZ:1"⟩

/-- A creation with settings and an attribute, and settings that are set later. -/
theorem settings_named_once_archive :
    (∃ s settings, (Operation.createTable archive).statement = .ok s ∧
      createdSettings? s = some settings ∧ "PARTITION_AT_KEYS" ∈ settings.map Prod.fst ∧
      "owner" ∈ settings.map Prod.fst ∧ (settings.map Prod.fst).Nodup) ∧
    ∃ s settings, (Operation.setTableSettings "dir/archive" archiveSettings).statement = .ok s ∧
      alteredSettings? s = some settings ∧ "TTL" ∈ settings.map Prod.fst ∧
      (settings.map Prod.fst).Nodup := by
  obtain ⟨hcreate, halter⟩ := settings_named_once archive "dir/archive" archiveSettings
  have hattribute : ∀ key ∈ archive.attributes.keys, ¬archive.settings.Sets key := by
    intro key hkey hsets
    obtain rfl := List.mem_singleton.1 (hkey : key ∈ ["owner"])
    exact absurd hsets.mem_settingKeys (by decide)
  constructor
  · obtain ⟨settings, hsettings, hmem, hnodup⟩ := hcreate _ rfl
    exact ⟨_, settings, rfl, hsettings, (hmem _).2 (.inl (.splitPoints (by decide))),
      (hmem _).2 (.inr (by decide)), hnodup.2 hattribute⟩
  · obtain ⟨settings, hsettings, hmem, hnodup⟩ := halter _ rfl
    exact ⟨_, settings, rfl, hsettings, (hmem _).2 (.ttl rfl), hnodup⟩

/-- A table of which the read replicas are declared twice, once as an attribute. -/
def replicatedTable : Table where
  path := "t"
  columns := [{ name := "id", type := "Uint64" }]
  primaryKey := ["id"]
  replication := some ⟨some "PER_AZ:1"⟩
  attributes := .ofList [("READ_REPLICAS_SETTINGS", "ANY_AZ:3")]

def replicatedStatement : String :=
  "CREATE TABLE `t`(\n\t`id` Uint64,\n\tPRIMARY KEY (`id`)\n)\nWITH (\n" ++
  "\tREAD_REPLICAS_SETTINGS = \"PER_AZ:1\",\n\tREAD_REPLICAS_SETTINGS = \"ANY_AZ:3\"\n)\n"

theorem statement_replicated :
    (Operation.createTable replicatedTable).statement = .ok replicatedStatement := by
  decide +kernel

/-- An attribute under the key of the replicas is written beside them, so the statement has the key
twice. -/
theorem statement_setsTwice :
    (Operation.createTable replicatedTable).statement = .ok replicatedStatement ∧
      ∃ settings, createdSettings? replicatedStatement = some settings ∧
        settings.map Prod.fst = ["READ_REPLICAS_SETTINGS", "READ_REPLICAS_SETTINGS"] ∧
        ¬(settings.map Prod.fst).Nodup := by
  refine ⟨statement_replicated, _, createdSettings?_statement statement_replicated, rfl, ?_⟩
  decide

end SchemaPlan
