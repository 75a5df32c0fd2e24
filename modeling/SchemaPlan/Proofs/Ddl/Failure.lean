import SchemaPlan.Operation.Fault
import SchemaPlan.Proofs.Ddl.Realization
import SchemaPlan.Proofs.Failure

/-!
# Statements that cannot be written

`failsFor_statement` : the statement of an operation that is complete cannot be written exactly if
the operation has a fault, and then the error is one of its faults. Each clause has a lemma of the
same form, with the faults of the quoted parts of its draft and those of what it writes without
quotes.
-/

namespace SchemaPlan.Ddl

variable {e : Error}

/-! ## Faults of drafts -/

section

variable {c d : Draft} {ds : List Draft}

@[simp] theorem quotingFault_nil : ¬QuotingFault [] e := by
  simp [QuotingFault]

@[simp] theorem quotingFault_plain (text : String) : ¬QuotingFault (plain text) e := by
  simp [QuotingFault, plain]

/-- A draft cannot be put in quotes because of one of its parts. -/
@[simp] theorem quotingFault_append :
    QuotingFault (c ++ d) e ↔ QuotingFault c e ∨ QuotingFault d e := by
  simp only [QuotingFault, List.mem_append, or_and_right, exists_or]

@[simp] theorem quotingFault_flatten :
    QuotingFault ds.flatten e ↔ ∃ d ∈ ds, QuotingFault d e := by
  simp only [QuotingFault, List.mem_flatten]
  exact ⟨fun ⟨q, ⟨d, hd, hq⟩, hfault⟩ => ⟨d, hd, q, hq, hfault⟩,
    fun ⟨d, hd, q, hq, hfault⟩ => ⟨q, ⟨d, hd, hq⟩, hfault⟩⟩

@[simp] theorem quotingFault_join (separator : String) :
    QuotingFault (join separator ds) e ↔ ∃ d ∈ ds, QuotingFault d e := by
  cases ds with
  | nil => simp
  | cons d ds =>
    rw [join_cons, List.flatMap_def]
    simp

@[simp] theorem quotingFault_bracketBlock :
    QuotingFault (bracketBlock ds) e ↔ ∃ d ∈ ds, QuotingFault d e := by
  simp [bracketBlock, block]

@[simp] theorem quotingFault_withBlock :
    QuotingFault (withBlock ds) e ↔ ∃ d ∈ ds, QuotingFault d e := by
  cases ds <;> simp [withBlock]

@[simp] theorem quotingFault_bracketed :
    QuotingFault (bracketed ds) e ↔ ∃ d ∈ ds, QuotingFault d e := by
  simp [bracketed]

@[simp] theorem quotingFault_setting (key : String) :
    QuotingFault (setting key d) e ↔ QuotingFault d e := by
  simp [setting]

@[simp] theorem quotingFault_number (n : UInt64) : ¬QuotingFault (number n) e :=
  quotingFault_plain _

@[simp] theorem quotingFault_toggle (enabled : Bool) : ¬QuotingFault (toggle enabled) e :=
  quotingFault_plain _

theorem not_quotingFault_of_mem_switch {key : String} {enabled : Bool}
    (h : d ∈ switch key enabled) : ¬QuotingFault d e := by
  cases enabled with
  | false => cases h
  | true =>
    rw [List.mem_singleton.1 h]
    simp

/-- Toggles and numbers of a partitioning are in no quotes. -/
theorem not_quotingFault_of_mem_partitioningFlags {p : Partitioning}
    (h : d ∈ partitioningFlags p) : ¬QuotingFault d e := by
  simp only [partitioningFlags, List.mem_append, Option.mem_toList, Option.map_eq_some_iff] at h
  -- each flag is a setting with a number or a switch, which are written without quotes
  rcases h with ((((h | h) | h) | h) | h) | h
  all_goals
    obtain ⟨_, -, rfl⟩ := h
    simp

end

/-! ## Names and texts -/

/-- A text cannot be put in quotes exactly if it may not stand between them. -/
theorem failsFor_put (quote : Quote) (content : String) :
    FailsFor (QuotingFault [.quoted ⟨quote, content⟩]) (quote.put content) := by
  have hfault : ∀ e, QuotingFault [.quoted ⟨quote, content⟩] e ↔
      content.toList.all quote.admits = false ∧ e = .rejected (quote.refusal content) := fun e => by
    simp [QuotingFault, Quotation.Fault]
  unfold Quote.put
  split
  · next h => exact (FailsFor.ok _).congr fun e => by simp [hfault, h]
  · next h => exact (FailsFor.error _).congr fun e => by simp [hfault, h]

theorem failsFor_name (content : String) :
    FailsFor (QuotingFault (Draft.name content)) (name content) :=
  (failsFor_put .name content).bind_pure

theorem failsFor_text (content : String) :
    FailsFor (QuotingFault (Draft.text content)) (text content) :=
  (failsFor_put .text content).bind_pure

theorem failsFor_names (contents : List String) :
    FailsFor (QuotingFault (Draft.names contents)) (names contents) :=
  (FailsFor.mapM fun content _ => failsFor_name content).bind_pure.congr fun e => by
    simp [Draft.names]

theorem failsFor_interval (period : String) :
    FailsFor (QuotingFault (Draft.interval period)) (interval period) :=
  (failsFor_text period).bind_pure.congr fun e => by simp [Draft.interval]

/-! ## Columns, indexes and families -/

/-- The type of a column is refused exactly for its fault. -/
theorem failsFor_columnType (c : Column) : FailsFor c.TypeFault (columnType c) := by
  simp only [columnType]
  split
  · next h => exact (FailsFor.ok _).congr fun e => by simp_all [Column.TypeFault]
  · next h =>
    refine (FailsFor.error _).congr fun e => and_iff_right ?_
    simpa [imp_iff_not_or] using h

theorem failsFor_columnDefinition (c : Column) :
    FailsFor (fun e => QuotingFault (Draft.column c) e ∨ c.TypeFault e) (columnDefinition c) := by
  refine ((failsFor_name c.name).bind fun _ _ => (failsFor_columnType c).bind fun _ _ =>
    (FailsFor.mapM fun f _ => (failsFor_name f).bind_pure).bind_pure).congr fun e => ?_
  have hnull : ¬QuotingFault (if c.notNull then plain " NOT NULL" else []) e := by
    split <;> simp
  simp only [Draft.column, quotingFault_append, quotingFault_plain, quotingFault_flatten, hnull]
  simpa using or_right_comm.trans or_assoc

/-- The definition of an index on some column fails only for a name in it. -/
theorem failsFor_indexDefinition {i : Index} (h : i.columns ≠ []) :
    FailsFor (QuotingFault (Draft.index i)) (indexDefinition i) := by
  have hcolumns : ¬(i.columns.isEmpty = true) := by simpa using h
  refine ((failsFor_name i.name).bind fun _ _ => (failsFor_names i.columns).bind fun _ _ =>
    (failsFor_names i.cover).bind_pure).of_not_refused hcolumns |>.congr fun e => ?_
  cases hcover : i.cover <;> simp [Draft.index, Draft.names, hcover]

theorem failsFor_familyDefinition (f : Family) :
    FailsFor (QuotingFault (Draft.family f)) (familyDefinition f) :=
  ((failsFor_name f.name).bind fun _ _ => (failsFor_text f.media).bind fun _ _ =>
    (failsFor_text f.compression).bind_pure).congr fun e => by simp [Draft.family]

theorem failsFor_primaryKey (columns : List String) :
    FailsFor (QuotingFault (Draft.names columns)) (primaryKey columns) :=
  (failsFor_names columns).bind_pure

/-! ## Settings -/

theorem failsFor_ttlEntry (t : Ttl) : FailsFor (QuotingFault (Draft.ttl t)) (ttlEntry t) :=
  ((failsFor_interval t.interval).bind fun _ _ => (failsFor_name t.column).bind_pure).congr
    fun e => by simp [Draft.ttl]

/-- A value of a split point is refused if it is not of the type of its column, or if it is a text
that may not stand between quotes. -/
theorem failsFor_typedLiteral (c : Column) (literal : String) :
    FailsFor (fun e => QuotingFault (Draft.literal c literal) e ∨
      (c.hasValue literal = false ∧ e = .invalidLiteral c.name c.type literal))
      (typedLiteral c literal) := by
  cases hlookup : literalTypes.lookup c.baseType with
  | none =>
    simp only [typedLiteral, Draft.literal, Column.hasValue, hlookup]
    exact (FailsFor.error _).congr fun e => by simp
  | some type =>
    cases type with
    | text =>
      simp only [typedLiteral, Draft.literal, Column.hasValue, hlookup]
      exact (failsFor_text literal).congr fun e => by simp
    | integer range =>
      simp only [typedLiteral, Draft.literal, Column.hasValue, hlookup]
      cases hread : range.read? (Text.dropEnds Text.isBlank literal.toList) with
      | none => exact (FailsFor.error _).congr fun e => by simp
      | some i => exact (FailsFor.ok _).congr fun e => by simp
    | bool =>
      simp only [typedLiteral, Draft.literal, Column.hasValue, hlookup]
      cases hread : readBool? literal.toList with
      | none => exact (FailsFor.error _).congr fun e => by simp
      | some b => exact (FailsFor.ok _).congr fun e => by simp

/-- A split point has a fault if it has no value, or more of them than the key has columns, or a
value that is not of the type of its column. -/
theorem splitPointFault_iff {key : List Column} {point : List String} :
    SplitPointFault key point e ↔
      ((point = [] ∨ key.length < point.length) ∧
        e = .rejected (.splitPointSize point.length key.length)) ∨
      ∃ v ∈ key.zip point, v.1.hasValue v.2 = false ∧
        e = .invalidLiteral v.1.name v.1.type v.2 := by
  constructor
  · rintro (h | ⟨h, hvalue⟩)
    · exact .inl ⟨h, rfl⟩
    · exact .inr ⟨_, h, hvalue, rfl⟩
  · rintro (⟨h, rfl⟩ | ⟨v, h, hvalue, rfl⟩)
    · exact .size h
    · exact .literal h hvalue

/-- A split point cannot be written because of a text in it or because of a fault of it. -/
theorem failsFor_splitPoint (key : List Column) (point : List String) :
    FailsFor (fun e => (∃ v ∈ key.zip point, QuotingFault (Draft.literal v.1 v.2) e) ∨
      SplitPointFault key point e) (splitPoint key point) := by
  unfold splitPoint
  split
  · next h =>
    have hsize : point = [] ∨ key.length < point.length := by simpa using h
    exact ⟨fun e he => by cases he; exact .inr (.size hsize), fun _ _ => ⟨_, rfl⟩⟩
  · next h =>
    have hsize : ¬(point = [] ∨ key.length < point.length) := by simpa using h
    refine (FailsFor.mapM fun v _ => failsFor_typedLiteral v.1 v.2).bind_pure.congr fun e => ?_
    simp only [splitPointFault_iff, hsize, false_and, false_or, and_or_left, exists_or]

theorem failsFor_splitPointsEntries (key : List Column) (p : Partitioning) :
    FailsFor (fun e => (∃ d ∈ Draft.partitioning key p, QuotingFault d e) ∨
      ∃ point ∈ p.splitPoints, SplitPointFault key point e)
      (splitPointsEntries key p.splitPoints) := by
  have hflags : ∀ e, ¬∃ d ∈ partitioningFlags p, QuotingFault d e := fun e ⟨d, hd, h⟩ =>
    not_quotingFault_of_mem_partitioningFlags hd h
  unfold splitPointsEntries
  cases hpoints : p.splitPoints with
  | nil => exact (FailsFor.ok _).congr fun e => by simp [Draft.partitioning, hpoints, hflags]
  | cons point points =>
    refine (FailsFor.mapM fun point _ => failsFor_splitPoint key point).bind_pure.bind_pure.congr
      fun e => ?_
    simp only [Draft.partitioning, hpoints, List.isEmpty_cons, Bool.false_eq_true, if_false,
      List.mem_append, or_and_right, exists_or, hflags, false_or, List.mem_singleton,
      exists_eq_left, quotingFault_setting, Draft.splitPoints, quotingFault_bracketed,
      List.mem_map, exists_exists_and_eq_and, and_or_left]

/-- Settings cannot be written because of a text in them or because of one of their split points. -/
theorem failsFor_settingsEntries (key : List Column) (s : TableSettings) :
    FailsFor (fun e => (∃ d ∈ Draft.settings key s, QuotingFault d e) ∨
      ∃ point ∈ (s.partitioning.getD {}).splitPoints, SplitPointFault key point e)
      (settingsEntries key s) := by
  refine ((FailsFor.mapM fun t _ => failsFor_ttlEntry t).bind fun _ _ =>
    (failsFor_splitPointsEntries key (s.partitioning.getD {})).bind_pure.bind fun _ _ =>
    (FailsFor.mapM fun replicas _ => (failsFor_text replicas).bind_pure).bind_pure).congr
    fun e => ?_
  simp only [Draft.settings, List.mem_append, or_and_right, exists_or, List.mem_map,
    exists_exists_and_eq_and, quotingFault_setting]
  exact iff_of_eq (by ac_rfl)

/-- Attributes cannot be written because of a value, or because a key is no key of an attribute. -/
theorem failsFor_attributeEntries (a : Attributes) :
    FailsFor (fun e => (∃ d ∈ Draft.attributes a, QuotingFault d e) ∨
      ∃ entry ∈ a.entries, isAttributeKey entry.1 = false ∧
        e = .rejected (.invalidAttribute entry.1)) (attributeEntries a) := by
  refine (FailsFor.mapM fun entry _ => (failsFor_text entry.2).bind_pure.refuse).congr fun e => ?_
  simp [Draft.attributes, and_or_left, exists_or, or_comm]

theorem failsFor_changefeedEntries (f : Changefeed) :
    FailsFor (fun e => ∃ d ∈ Draft.changefeed f, QuotingFault d e) (changefeedEntries f) := by
  refine ((failsFor_text f.mode.name).bind fun _ _ => (failsFor_text f.format.name).bind fun _ _ =>
    (FailsFor.mapM fun period _ => (failsFor_interval period).bind_pure).bind_pure).congr
    fun e => ?_
  have hswitch : ∀ key enabled, ¬∃ d ∈ switch key enabled, QuotingFault d e :=
    fun key enabled ⟨d, hd, h⟩ => not_quotingFault_of_mem_switch hd h
  simp only [Draft.changefeed, List.mem_append, or_and_right, exists_or, hswitch, or_false]
  simpa using or_assoc

/-! ## Topics -/

theorem failsFor_codecEntries (codecs : List Codec) :
    FailsFor (fun e => ∃ d ∈ Draft.codecs codecs, QuotingFault d e) (codecEntries codecs) := by
  unfold codecEntries Draft.codecs
  split
  · exact (FailsFor.ok _).congr fun e => by simp
  · exact (failsFor_text _).bind_pure.congr fun e => by simp

theorem failsFor_readFromEntry (t : Timestamp) :
    FailsFor (QuotingFault (Draft.readFrom t)) (readFromEntry t) :=
  (failsFor_text _).bind_pure.bind_pure.congr fun e => by simp [Draft.readFrom]

theorem failsFor_consumerDefinition (c : Consumer) :
    FailsFor (QuotingFault (Draft.consumer c)) (consumerDefinition c) := by
  refine ((failsFor_name c.name).bind fun _ _ => ((failsFor_codecEntries c.codecs).bind fun _ _ =>
    (failsFor_readFromEntry c.readFrom).bind_pure).bind_pure).congr fun e => ?_
  simp [Draft.consumer, or_and_right, exists_or]

theorem failsFor_topicEntries (s : TopicSettings) :
    FailsFor (fun e => ∃ d ∈ Draft.topic s, QuotingFault d e) (topicEntries s) := by
  refine ((FailsFor.mapM fun period _ => (failsFor_interval period).bind_pure).bind fun _ _ =>
    (failsFor_codecEntries s.codecs).bind_pure).congr fun e => ?_
  simp [Draft.topic, or_and_right, exists_or, partitionsEntries]

/-! ## Statements -/

theorem failsFor_alterTable (table : String) :
    FailsFor (QuotingFault (Draft.alterTable table)) (alterTable table) :=
  (failsFor_name table).bind_pure.congr fun e => by simp [Draft.alterTable]

theorem failsFor_alterTopicNamed (topic : String) :
    FailsFor (QuotingFault (Draft.alterTopic topic)) (alterTopicNamed topic) :=
  (failsFor_name topic).bind_pure.congr fun e => by simp [Draft.alterTopic]

/-- What is wrong with a table beyond its texts and its types is a split point or the key of an
attribute. -/
theorem creationFault_iff {t : Table} : t.CreationFault e ↔
    (∃ point ∈ (t.settings.partitioning.getD {}).splitPoints,
      SplitPointFault (t.primaryKey.filterMap t.column?) point e) ∨
    ∃ entry ∈ t.attributes.entries, isAttributeKey entry.1 = false ∧
      e = .rejected (.invalidAttribute entry.1) := by
  constructor
  · rintro (⟨h, hkey⟩ | ⟨h, hpoint, hfault⟩)
    · exact .inr ⟨_, h, hkey, rfl⟩
    · exact .inl ⟨_, by simpa [Table.settings, h] using hpoint, hfault⟩
  · rintro (⟨point, hpoint, hfault⟩ | ⟨entry, h, hkey, rfl⟩)
    · cases hp : t.partitioning with
      | none => simp [Table.settings, hp] at hpoint
      | some p => exact .splitPoint hp (by simpa [Table.settings, hp] using hpoint) hfault
    · exact .attributeKey h hkey

/-- The faults of an operation are those of its texts, of the types of its columns and of the table
that it creates. -/
theorem fault_iff {operation : Operation} : operation.Fault e ↔ QuotingFault operation.draft e ∨
    (∃ c ∈ operation.columns, c.TypeFault e) ∨
      ∃ t, operation = .createTable t ∧ t.CreationFault e := by
  constructor
  · rintro (h | ⟨h, hfault⟩ | ⟨h, hfault⟩)
    · exact .inl h
    · exact .inr (.inl ⟨_, h, hfault⟩)
    · exact .inr (.inr ⟨_, h, hfault⟩)
  · rintro (h | ⟨c, h, hfault⟩ | ⟨t, h, hfault⟩)
    · exact .quoting h
    · exact .type h hfault
    · exact .creation h hfault

/-- The columns of a key that are all declared are found. -/
theorem failsFor_keyColumns {t : Table} (h : ∀ column ∈ t.primaryKey, column ∈ t.columnNames) :
    FailsFor (fun _ => False) (keyColumns t) := by
  have hstep : ∀ column ∈ t.primaryKey, ∃ c, t.column? column = some c := fun column hcolumn => by
    obtain ⟨c, hc, hname⟩ := List.mem_map.1 (h column hcolumn)
    exact Option.isSome_iff_exists.1 (List.find?_isSome.2 ⟨c, hc, by simpa using hname⟩)
  refine (FailsFor.mapM (E := fun _ _ => False) fun column hcolumn => ?_).congr fun e => by simp
  obtain ⟨c, hc⟩ := hstep column hcolumn
  rw [hc]
  exact .ok c

/-- The creation of a table with a key over its columns fails only for its faults. -/
theorem failsFor_createTable {t : Table} (h : (Operation.createTable t).Complete) :
    FailsFor (Operation.createTable t).Fault (createTable t) := by
  obtain ⟨hcolumns, hkey, hdeclared, hindexes⟩ := h
  have hsettings : ∀ key, keyColumns t = .ok key → FailsFor (fun e =>
      (∃ d ∈ Draft.settings (t.primaryKey.filterMap t.column?) t.settings, QuotingFault d e) ∨
      ∃ point ∈ (t.settings.partitioning.getD {}).splitPoints,
        SplitPointFault (t.primaryKey.filterMap t.column?) point e)
      (settingsEntries key t.settings) := fun key hkey => by
    rw [eq_of_keyColumns hkey]
    exact failsFor_settingsEntries _ _
  refine (FailsFor.of_not_refused (by simpa using hcolumns) <|
    FailsFor.of_not_refused (by simpa using hkey) <|
    (FailsFor.mapM fun c _ => failsFor_columnDefinition c).bind fun _ _ =>
    (FailsFor.mapM fun i hi => failsFor_indexDefinition (hindexes i hi)).bind fun _ _ =>
    (failsFor_primaryKey t.primaryKey).bind fun _ _ =>
    (FailsFor.mapM fun f _ => failsFor_familyDefinition f).bind fun _ _ =>
    (failsFor_name t.path).bind fun _ _ =>
    (failsFor_keyColumns hdeclared).bind fun key hk =>
    (hsettings key hk).bind fun _ _ =>
    (failsFor_attributeEntries t.attributes).bind_pure).congr fun e => ?_
  rw [fault_iff]
  simp only [Operation.draft, Draft.createTable, Draft.tableEntries, Draft.withEntries,
    quotingFault_append, quotingFault_plain, quotingFault_bracketBlock, quotingFault_withBlock,
    List.mem_append, List.mem_map, List.mem_singleton, or_and_right, exists_or, ↓existsAndEq,
    and_true, true_and, or_false, false_or, Operation.columns, Operation.createTable.injEq,
    creationFault_iff, and_or_left]
  exact iff_of_eq (by ac_rfl)

/-- The creation of a topic fails only because of a text in it. -/
theorem failsFor_createTopic (t : Topic) :
    FailsFor (QuotingFault (Draft.createTopic t)) (createTopic t) := by
  refine ((failsFor_name t.path).bind fun _ _ =>
    (FailsFor.mapM fun c _ => failsFor_consumerDefinition c).bind fun _ _ =>
    (failsFor_topicEntries ⟨t.partitions, t.retention, t.codecs⟩).bind_pure).congr fun e => ?_
  cases hconsumers : t.consumers <;> simp [Draft.createTopic, hconsumers]

/-- Settings of which something is written have an entry. -/
theorem settings_ne_nil {s : TableSettings} (h : s.written.isEmpty = false) (key : List Column) :
    Draft.settings key s ≠ [] := by
  intro hnil
  obtain ⟨ttl, partitioning, replication⟩ := s
  simp only [Draft.settings, Draft.partitioning, List.append_eq_nil_iff, List.map_eq_nil_iff,
    Option.toList_eq_nil_iff] at hnil
  obtain ⟨⟨httl, hflags, hpoints⟩, hreplicas⟩ := hnil
  have hpartitioning : (partitioning.getD {}).isEmpty = true := by
    simp_all [partitioningFlags, Partitioning.isEmpty]
  simp only [TableSettings.written, hreplicas, httl] at h
  cases partitioning with
  | none => simp [TableSettings.isEmpty] at h
  | some p => simp_all [TableSettings.isEmpty, Option.filter]

/-- Settings of a topic that set something have an entry. -/
theorem topic_ne_nil {s : TopicSettings} (h : s.isEmpty = false) : Draft.topic s ≠ [] := by
  obtain ⟨partitions, retention, codecs⟩ := s
  cases partitions <;> cases retention <;> cases codecs <;>
    simp_all [Draft.topic, TopicSettings.isEmpty, partitionsEntries, Draft.codecs]

/-- The statement of a complete operation cannot be written exactly if the operation has a fault,
and then the error is one of its faults. -/
theorem failsFor_phrase {operation : Operation} (h : operation.Complete) :
    FailsFor operation.Fault operation.phrase := by
  cases operation with
  | createTable t => exact failsFor_createTable h
  | addColumn table c =>
    refine ((failsFor_alterTable table).bind fun _ _ =>
      (failsFor_columnDefinition c).bind_pure).congr fun e => ?_
    simp [fault_iff, Operation.draft, Operation.columns, or_assoc]
  | addIndex table i =>
    refine ((failsFor_alterTable table).bind fun _ _ =>
      (failsFor_indexDefinition h).bind_pure).congr fun e => ?_
    simp [fault_iff, Operation.draft, Operation.columns]
  | dropIndex table index =>
    refine ((failsFor_alterTable table).bind fun _ _ =>
      (failsFor_name index).bind_pure).congr fun e => ?_
    simp [fault_iff, Operation.draft, Operation.columns]
  | addChangefeed table f =>
    refine ((failsFor_changefeedEntries f).bind fun _ _ => (failsFor_alterTable table).bind
      fun _ _ => (failsFor_name f.name).bind_pure).congr fun e => ?_
    simpa [fault_iff, Operation.draft, Operation.columns] using or_assoc.symm.trans or_comm
  | dropChangefeed table feed =>
    refine ((failsFor_alterTable table).bind fun _ _ =>
      (failsFor_name feed).bind_pure).congr fun e => ?_
    simp [fault_iff, Operation.draft, Operation.columns]
  | setTableSettings table settings =>
    obtain ⟨hwritten, hpoints⟩ := h
    refine ((failsFor_settingsEntries [] settings).bind fun entries hentries =>
      FailsFor.of_not_refused
        ((not_isEmpty_iff_of_realizes (realizes_settingsEntries hentries)).2
          (settings_ne_nil hwritten [])) (failsFor_alterTable table).bind_pure).congr fun e => ?_
    simp [fault_iff, Operation.draft, Operation.columns, hpoints, or_comm]
  | resetTtl table =>
    refine (failsFor_alterTable table).bind_pure.congr fun e => ?_
    simp [fault_iff, Operation.draft, Operation.columns]
  | createTopic topic =>
    refine (failsFor_createTopic topic).congr fun e => ?_
    simp [fault_iff, Operation.draft, Operation.columns]
  | alterTopic topic settings =>
    refine ((failsFor_topicEntries settings).bind fun entries hentries =>
      FailsFor.of_not_refused
        ((not_isEmpty_iff_of_realizes (realizes_topicEntries hentries)).2 (topic_ne_nil h))
        (failsFor_alterTopicNamed topic).bind_pure).congr fun e => ?_
    simp [fault_iff, Operation.draft, Operation.columns, or_comm]
  | changeConsumer topic change =>
    cases change with
    | add c =>
      refine ((failsFor_alterTopicNamed topic).bind fun _ _ =>
        (failsFor_consumerDefinition c).bind_pure).congr fun e => ?_
      simp [fault_iff, Operation.draft, Operation.columns, Draft.changeConsumer]
    | setReadFrom consumer readFrom =>
      refine ((failsFor_alterTopicNamed topic).bind fun _ _ => (failsFor_name consumer).bind
        fun _ _ => (failsFor_readFromEntry readFrom).bind_pure).congr fun e => ?_
      simp [fault_iff, Operation.draft, Operation.columns, Draft.changeConsumer]
    | setCodecs consumer codecs =>
      have hcodecs : ¬codecs.isEmpty = true := by simpa [Operation.Complete] using h
      refine ((failsFor_alterTopicNamed topic).bind fun _ _ =>
        FailsFor.of_not_refused hcodecs <| (failsFor_name consumer).bind fun _ _ =>
        (failsFor_codecEntries codecs).bind_pure).congr fun e => ?_
      simp [fault_iff, Operation.draft, Operation.columns, Draft.changeConsumer]

/-- A complete operation has no statement exactly if it has a fault, and then the error is one of
its faults. -/
theorem failsFor_statement {operation : Operation} (h : operation.Complete) :
    FailsFor operation.Fault operation.statement :=
  (failsFor_phrase h).map

end SchemaPlan.Ddl
