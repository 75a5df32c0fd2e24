import SchemaPlan.Ddl.Draft
import SchemaPlan.Operation.Texts
import SchemaPlan.Proofs.Ddl.Fragment

/-!
# What drafts consist of

`texts_draft` : the quoted parts of the draft of an operation are its names and texts, in order.
`outline_draft` : everything else is decided by the shape of the operation, as long as there are no
split points, whose values are written by the types of columns that are found by their names.
-/

namespace SchemaPlan.Ddl

/-! ## Names and texts of clauses -/

@[simp] theorem texts_flatten (ds : List Draft) : texts ds.flatten = ds.flatMap texts := by
  rw [List.flatten_eq_flatMap, texts_flatMap]
  rfl

@[simp] theorem texts_name (content : String) : texts (Draft.name content) = [content] :=
  rfl

@[simp] theorem texts_text (content : String) : texts (Draft.text content) = [content] :=
  rfl

@[simp] theorem texts_names (contents : List String) : texts (Draft.names contents) = contents := by
  simp only [Draft.names, texts_join, List.flatMap_map, texts_name, List.flatMap_singleton']

@[simp] theorem texts_interval (period : String) : texts (Draft.interval period) = [period] :=
  rfl

/-- The texts in the draft of a column are those of the column. -/
@[simp] theorem texts_column (c : Column) : texts (Draft.column c) = c.texts := by
  have hnull : texts (if c.notNull then plain " NOT NULL" else []) = [] := by
    split <;> rfl
  cases hf : c.family <;> simp [Draft.column, Column.texts, hnull, hf]

/-- The texts in the draft of an index are those of the index. -/
@[simp] theorem texts_index (i : Index) : texts (Draft.index i) = i.texts := by
  cases hcover : i.cover <;> simp [Draft.index, Index.texts, hcover]

@[simp] theorem texts_family (f : Family) : texts (Draft.family f) = f.texts :=
  rfl

/-- An expiry has two texts, the interval in front of the column. -/
@[simp] theorem texts_ttl (t : Ttl) : texts (Draft.ttl t) = [t.interval, t.column] :=
  rfl

/-- A literal has a text between quotes only in a column of texts. -/
theorem texts_literal (c : Column) (content : String) : texts (Draft.literal c content) =
    if literalTypes.lookup c.baseType = some .text then [content] else [] := by
  unfold Draft.literal
  cases h : literalTypes.lookup c.baseType with
  | none => simp
  | some type =>
    cases type with
    | integer range =>
      simp only [Option.some.injEq, reduceCtorEq, if_false]
      split <;> rfl
    | bool =>
      simp only [Option.some.injEq, reduceCtorEq, if_false]
      split <;> rfl
    | text => rfl

/-- Split points have the texts of the literals that are texts. -/
@[simp] theorem texts_splitPoints (key : List Column) (points : List (List String)) :
    texts (Draft.splitPoints key points) = splitTexts key points := by
  simp only [Draft.splitPoints, texts_bracketed, List.flatMap_map, splitTexts, texts_literal]
  refine congrArg points.flatMap (funext fun point => ?_)
  rw [List.filterMap_eq_flatMap_toList]
  refine congrArg (key.zip point).flatMap (funext fun e => ?_)
  split <;> rfl

theorem texts_optional {α : Type} (value : Option α) (f : α → Draft) :
    (value.map f).toList.flatMap texts = value.toList.flatMap fun a => texts (f a) := by
  cases value <;> simp

theorem texts_partitioningFlags (p : Partitioning) :
    (partitioningFlags p).flatMap texts = [] := by
  simp [partitioningFlags, texts_optional, toggle, number]

/-- All texts of a partitioning are in its split points. -/
@[simp] theorem texts_partitioning (key : List Column) (p : Partitioning) :
    (Draft.partitioning key p).flatMap texts = splitTexts key p.splitPoints := by
  rw [Draft.partitioning, List.flatMap_append, texts_partitioningFlags, List.nil_append]
  cases hpoints : p.splitPoints with
  | nil => rfl
  | cons point points => simp

/-- The texts in the settings of a table are those of its expiry, split points and replicas. -/
@[simp] theorem texts_settings (key : List Column) (s : TableSettings) :
    (Draft.settings key s).flatMap texts = s.texts key := by
  simp [Draft.settings, TableSettings.texts, List.flatMap_map]

/-- The values of attributes stand between quotes and their keys do not. -/
@[simp] theorem texts_attributes (a : Attributes) :
    (Draft.attributes a).flatMap texts = a.entries.map Prod.snd := by
  rw [Draft.attributes, List.flatMap_map, List.map_eq_flatMap]
  rfl

@[simp] theorem texts_switch (key : String) (enabled : Bool) :
    (switch key enabled).flatMap texts = [] := by
  cases enabled <;> rfl

/-- The texts in the draft of a changefeed are those of the changefeed. -/
@[simp] theorem texts_changefeed (f : Changefeed) :
    f.name :: (Draft.changefeed f).flatMap texts = f.texts := by
  simp [Draft.changefeed, Changefeed.texts, List.flatMap_map]

@[simp] theorem texts_codecs (codecs : List Codec) :
    (Draft.codecs codecs).flatMap texts = codecTexts codecs := by
  unfold Draft.codecs codecTexts
  split <;> rfl

@[simp] theorem texts_readFrom (t : Timestamp) : texts (Draft.readFrom t) = [t.writeSeconds] :=
  rfl

/-- The texts in the draft of a consumer are those of the consumer. -/
@[simp] theorem texts_consumer (c : Consumer) : texts (Draft.consumer c) = c.texts := by
  simp [Draft.consumer, Consumer.texts]

/-- The texts in the settings of a topic are those of the settings. -/
@[simp] theorem texts_topic (s : TopicSettings) : (Draft.topic s).flatMap texts = s.texts := by
  simp [Draft.topic, TopicSettings.texts, List.flatMap_map, partitionsEntries, number,
    texts_optional]

/-- The quoted parts of the draft of an operation are its names and texts. -/
theorem texts_draft (operation : Operation) : texts operation.draft = operation.texts := by
  cases operation with
  | createTable t =>
    simp [Operation.draft, Operation.texts, Draft.createTable, Draft.tableEntries,
      Draft.withEntries, Table.texts, List.flatMap_map]
  | addColumn _ _ => simp [Operation.draft, Operation.texts, Draft.alterTable]
  | addIndex _ _ => simp [Operation.draft, Operation.texts, Draft.alterTable]
  | dropIndex _ _ => rfl
  | addChangefeed _ f => simp [Operation.draft, Operation.texts, Draft.alterTable]
  | dropChangefeed _ _ => rfl
  | setTableSettings _ _ => simp [Operation.draft, Operation.texts, Draft.alterTable]
  | resetTtl _ => rfl
  | createTopic t =>
    cases h : t.consumers <;>
      simp [Operation.draft, Operation.texts, Draft.createTopic, Topic.texts, List.flatMap_map, h]
  | alterTopic _ _ => simp [Operation.draft, Operation.texts, Draft.alterTopic]
  | changeConsumer _ change =>
    cases change <;>
      simp [Operation.draft, Operation.texts, Draft.changeConsumer, Draft.alterTopic,
        ConsumerChange.texts]

/-! ## Shapes of clauses -/

section

variable {α : Type} {f : α → Draft} {shape : α → α}

/-- Drafts that agree with those of shapes agree in a list. -/
theorem relabel_map_shape
    (h : ∀ a, relabel Quotation.quote (f (shape a)) = relabel Quotation.quote (f a)) (l : List α) :
    ((l.map shape).map f).map (relabel Quotation.quote) =
      (l.map f).map (relabel Quotation.quote) := by
  simp only [List.map_map, Function.comp_def, h]

end

/-- Of a name only the kind of its quotes is left. -/
@[simp] theorem relabel_name (content : String) :
    relabel Quotation.quote (Draft.name content) = [.quoted .name] :=
  rfl

/-- Of a text only the kind of its quotes is left. -/
@[simp] theorem relabel_text (content : String) :
    relabel Quotation.quote (Draft.text content) = [.quoted .text] :=
  rfl

@[simp] theorem relabel_names (contents : List String) :
    relabel Quotation.quote (Draft.names contents) =
      join ", " (contents.map fun _ => [.quoted .name]) := by
  simp [Draft.names, Function.comp_def]

/-- Two columns of one shape differ only in what stands between quotes. -/
theorem relabel_column (c : Column) : relabel Quotation.quote (Draft.column c.shape) =
    relabel Quotation.quote (Draft.column c) := by
  cases hf : c.family <;> simp [Draft.column, Column.shape, hf]

/-- Two indexes of one shape differ only in what stands between quotes. -/
theorem relabel_index (i : Index) : relabel Quotation.quote (Draft.index i.shape) =
    relabel Quotation.quote (Draft.index i) := by
  cases hcover : i.cover <;> simp [Draft.index, Index.shape, hcover]

theorem relabel_family (f : Family) : relabel Quotation.quote (Draft.family ⟨"", "", ""⟩) =
    relabel Quotation.quote (Draft.family f) :=
  rfl

/-- Without split points a partitioning does not depend on the key. -/
theorem partitioning_of_no_splitPoints {p : Partitioning} (h : p.splitPoints = [])
    (key : List Column) : Draft.partitioning key p = partitioningFlags p := by
  rw [Draft.partitioning, h]
  exact List.append_nil _

/-- Without split points the settings of one shape differ only between quotes, whatever the key. -/
theorem relabel_settings {s : TableSettings} (h : (s.partitioning.getD {}).splitPoints = [])
    (key key' : List Column) : (Draft.settings key s.shape).map (relabel Quotation.quote) =
      (Draft.settings key' s).map (relabel Quotation.quote) := by
  obtain ⟨ttl, partitioning, replication⟩ := s
  have hshape : (TableSettings.shape ⟨ttl, partitioning, replication⟩).partitioning =
      partitioning := rfl
  simp only [Draft.settings, hshape, partitioning_of_no_splitPoints h, List.map_append]
  congr 1
  · congr 1
    cases ttl <;> rfl
  · cases replication with
    | none => rfl
    | some r => cases h : r.readReplicas <;> simp [TableSettings.shape, h]

/-- The attributes of one shape differ only in what stands between quotes. -/
theorem relabel_attributes (a : Attributes) :
    (Draft.attributes a.shape).map (relabel Quotation.quote) =
      (Draft.attributes a).map (relabel Quotation.quote) := by
  simp [Draft.attributes, Attributes.shape, Function.comp_def]

/-- The changefeeds of one shape differ only in what stands between quotes. -/
theorem relabel_changefeed (f : Changefeed) :
    (Draft.changefeed f.shape).map (relabel Quotation.quote) =
      (Draft.changefeed f).map (relabel Quotation.quote) := by
  cases hretention : f.retention <;>
    simp [Draft.changefeed, Changefeed.shape, Draft.interval, hretention]

/-- As many codecs are listed in one text, whichever they are. -/
theorem relabel_codecs (codecs : List Codec) :
    (Draft.codecs (codecsShape codecs)).map (relabel Quotation.quote) =
      (Draft.codecs codecs).map (relabel Quotation.quote) := by
  cases codecs <;> rfl

theorem relabel_consumer (c : Consumer) : relabel Quotation.quote (Draft.consumer c.shape) =
    relabel Quotation.quote (Draft.consumer c) := by
  simp [Draft.consumer, Consumer.shape, relabel_codecs, Draft.readFrom]

theorem relabel_topic (s : TopicSettings) :
    (Draft.topic s.shape).map (relabel Quotation.quote) =
      (Draft.topic s).map (relabel Quotation.quote) := by
  cases hretention : s.retention <;>
    simp [Draft.topic, TopicSettings.shape, Draft.interval, relabel_codecs, hretention]

/-- The changes of one shape differ only in what stands between quotes. -/
theorem relabel_changeConsumer (topic : String) (change : ConsumerChange) :
    relabel Quotation.quote (Draft.changeConsumer "" change.shape) =
      relabel Quotation.quote (Draft.changeConsumer topic change) := by
  cases change <;>
    simp [Draft.changeConsumer, ConsumerChange.shape, Draft.alterTopic, relabel_consumer,
      relabel_codecs, Draft.readFrom]

/-- The body of a table differs only between quotes from that of its shape. -/
theorem relabel_tableEntries (t : Table) :
    (Draft.tableEntries t.shape).map (relabel Quotation.quote) =
      (Draft.tableEntries t).map (relabel Quotation.quote) := by
  simp only [Draft.tableEntries, List.map_append]
  congr 1
  · congr 1
    · congr 1
      · exact relabel_map_shape relabel_column _
      · exact relabel_map_shape relabel_index _
    · simp [Table.shape]
  · exact relabel_map_shape relabel_family _

/-- Without split points the settings behind the body of a table differ only between quotes from
those of its shape. -/
theorem relabel_withEntries {t : Table} (h : (t.partitioning.getD {}).splitPoints = []) :
    (Draft.withEntries t.shape).map (relabel Quotation.quote) =
      (Draft.withEntries t).map (relabel Quotation.quote) := by
  simp only [Draft.withEntries, List.map_append]
  congr 1
  · exact relabel_settings h _ _
  · exact relabel_attributes _

/-- The creation of a topic differs only between quotes from that of its shape. -/
theorem relabel_createTopic (t : Topic) : relabel Quotation.quote (Draft.createTopic t.shape) =
    relabel Quotation.quote (Draft.createTopic t) := by
  obtain ⟨path, partitions, retention, codecs, consumers⟩ := t
  have hsettings := relabel_topic ⟨partitions, retention, codecs⟩
  have hconsumers := relabel_map_shape relabel_consumer consumers
  simp only [Draft.createTopic, Topic.shape, relabel_append, relabel_plain, relabel_name,
    relabel_withBlock]
  rw [TopicSettings.shape] at hsettings
  rw [hsettings]
  congr 3
  cases consumers with
  | nil => rfl
  | cons c consumers =>
    simp only [List.map_cons, List.isEmpty_cons, Bool.false_eq_true, if_false,
      relabel_bracketBlock]
    exact congrArg bracketBlock hconsumers

/-- Outside its quotes, the statement of an operation without split points is the one of its
shape. -/
theorem relabel_draft {operation : Operation} (h : operation.splitPoints = []) :
    relabel Quotation.quote operation.shape.draft = relabel Quotation.quote operation.draft := by
  cases operation with
  | createTable t =>
    simp only [Operation.shape, Operation.draft, Draft.createTable, relabel_append, relabel_plain,
      relabel_name, relabel_bracketBlock, relabel_withBlock, relabel_tableEntries,
      relabel_withEntries h]
  | addColumn _ c =>
    simp only [Operation.shape, Operation.draft, Draft.alterTable, relabel_append, relabel_plain,
      relabel_name, relabel_column]
  | addIndex _ i =>
    simp only [Operation.shape, Operation.draft, Draft.alterTable, relabel_append, relabel_plain,
      relabel_name, relabel_index]
  | dropIndex _ _ => rfl
  | addChangefeed _ f =>
    simp only [Operation.shape, Operation.draft, Draft.alterTable, relabel_append, relabel_plain,
      relabel_name, relabel_bracketed, relabel_changefeed]
  | dropChangefeed _ _ => rfl
  | setTableSettings _ s =>
    simp only [Operation.shape, Operation.draft, Draft.alterTable, relabel_append, relabel_plain,
      relabel_name, relabel_bracketed, relabel_settings h [] []]
  | resetTtl _ => rfl
  | createTopic t => exact relabel_createTopic t
  | alterTopic _ s =>
    simp only [Operation.shape, Operation.draft, Draft.alterTopic, relabel_append, relabel_plain,
      relabel_name, relabel_bracketed, relabel_topic]
  | changeConsumer topic change => exact relabel_changeConsumer topic change

end SchemaPlan.Ddl
