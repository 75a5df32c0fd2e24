import SchemaPlan.Ddl.Draft
import SchemaPlan.Proofs.Ddl.Calm
import SchemaPlan.Proofs.Step

/-!
# Statements realize their drafts

`realizes_phrase` : if the statement of an operation can be written, it is the draft of the
operation with its names and texts put between quotes, and its plain parts are calm. There is one
lemma for each clause, and the lemmas about `Realizes` put them together as the clauses are put
together.
-/

namespace SchemaPlan.Ddl

/-- The phrase is the draft with its names and texts put between quotes, and the rest is calm. -/
structure Realizes (p : Phrase) (d : Draft) : Prop where
  relabel_eq : relabel Quoted.toQuotation p = d
  calm : Calm p

/-! ## Putting phrases together -/

namespace Realizes

variable {p q : Phrase} {d e : Draft} {ps qs : List Phrase} {ds es : List Draft}

theorem nil : Realizes [] [] :=
  ⟨rfl, calm_nil⟩

theorem plain {text : String} (h : CalmText text.toList) : Realizes (plain text) (plain text) :=
  ⟨rfl, calm_plain h⟩

/-- Drafts are realized part by part. -/
theorem append (hp : Realizes p d) (hq : Realizes q e) : Realizes (p ++ q) (d ++ e) := by
  obtain ⟨rfl, hp⟩ := hp
  obtain ⟨rfl, hq⟩ := hq
  exact ⟨relabel_append _ _ _, calm_append hp hq⟩

theorem flatten (h : List.Forall₂ Realizes ps ds) : Realizes ps.flatten ds.flatten := by
  induction h with
  | nil => exact nil
  | cons hp _ ih => exact hp.append ih

/-- Calm text between phrases stands between their drafts. -/
theorem join {separator : String} (hsep : CalmText separator.toList)
    (h : List.Forall₂ Realizes ps ds) : Realizes (join separator ps) (join separator ds) := by
  cases h with
  | nil => exact nil
  | cons hp h =>
    rw [join_cons, join_cons, List.flatMap, List.flatMap]
    refine hp.append (flatten ?_)
    rw [List.forall₂_map_left_iff, List.forall₂_map_right_iff]
    exact h.imp fun _ _ hq => (plain hsep).append hq

theorem block (h : List.Forall₂ Realizes ps ds) : Realizes (block ps) (block ds) := by
  refine join (by decide) ?_
  rw [List.forall₂_map_left_iff, List.forall₂_map_right_iff]
  exact h.imp fun _ _ hq => (plain (by decide)).append hq

/-- Entries on lines of their own are realized one by one. -/
theorem bracketBlock (h : List.Forall₂ Realizes ps ds) :
    Realizes (bracketBlock ps) (bracketBlock ds) :=
  ((plain (by decide)).append (block h)).append (plain (by decide))

theorem withBlock (h : List.Forall₂ Realizes ps ds) : Realizes (withBlock ps) (withBlock ds) := by
  cases h with
  | nil => exact nil
  | cons hp h => exact (plain (by decide)).append (bracketBlock (.cons hp h))

theorem bracketed (h : List.Forall₂ Realizes ps ds) : Realizes (bracketed ps) (bracketed ds) :=
  ((plain (by decide)).append (join (by decide) h)).append (plain (by decide))

/-- A setting is realized with its value. -/
theorem setting {key : String} (hkey : CalmText (key ++ " = ").toList) (hp : Realizes p d) :
    Realizes (setting key p) (setting key d) :=
  (plain hkey).append hp

theorem number (n : UInt64) : Realizes (number n) (number n) := by
  refine plain ?_
  rw [Decimal.ofNat, String.toList_ofList]
  exact calmText_digits _

theorem toggle (enabled : Bool) : Realizes (toggle enabled) (toggle enabled) := by
  cases enabled with
  | true => exact plain (by decide)
  | false => exact plain (by decide)

theorem ite {c : Prop} [Decidable c] (hp : c → Realizes p d) (hq : ¬c → Realizes q e) :
    Realizes (if c then p else q) (if c then d else e) := by
  split
  · rename_i h
    exact hp h
  · rename_i h
    exact hq h

end Realizes

/-! ## Entries -/

section

variable {ps qs : List Phrase} {ds es : List Draft}

/-- Steps that realize drafts realize the list of them. -/
theorem realizes_mapM {α : Type} {l : List α} {f : α → Except Error Phrase} {g : α → Draft}
    (hf : ∀ a p, f a = .ok p → Realizes p (g a)) (h : l.mapM f = .ok ps) :
    List.Forall₂ Realizes ps (l.map g) := by
  rw [List.forall₂_map_right_iff]
  exact ((mapM_eq_ok_iff.1 h).imp fun a p ha => hf a p ha).flip

theorem realizes_singleton {p : Phrase} {d : Draft} (h : Realizes p d) :
    List.Forall₂ Realizes [p] [d] :=
  .cons h .nil

/-- Entries are there if their drafts are. -/
theorem not_isEmpty_iff_of_realizes (h : List.Forall₂ Realizes ps ds) :
    ¬ps.isEmpty = true ↔ ds ≠ [] := by
  cases h with
  | nil => simp
  | cons _ _ => simp

/-- The entry of a value that may be absent. -/
theorem realizes_optional {α : Type} {value : Option α} {f : α → Phrase} {g : α → Draft}
    (h : ∀ a, Realizes (f a) (g a)) :
    List.Forall₂ Realizes (value.map f).toList (value.map g).toList := by
  cases value with
  | none => exact .nil
  | some a => exact realizes_singleton (h a)

end

/-! ## Names and texts -/

/-- What has been put in quotes has its quote and its content. -/
theorem put_eq_ok {quote : Quote} {content : String} {q : Quoted}
    (h : quote.put content = .ok q) : q.toQuotation = ⟨quote, content⟩ := by
  unfold Quote.put at h
  split at h
  · cases h
    rfl
  · cases h

theorem realizes_quoted {quote : Quote} {content : String} {q : Quoted}
    (h : quote.put content = .ok q) : Realizes [.quoted q] [.quoted ⟨quote, content⟩] :=
  ⟨by rw [relabel_quoted, put_eq_ok h], calm_quoted q⟩

/-- A name that can be written is realized in its quotes. -/
theorem realizes_name {content : String} {p : Phrase} (h : name content = .ok p) :
    Realizes p (Draft.name content) := by
  simp only [name, bind_eq_ok_iff, pure_eq_ok_iff] at h
  obtain ⟨q, hq, rfl⟩ := h
  exact realizes_quoted hq

theorem realizes_text {content : String} {p : Phrase} (h : text content = .ok p) :
    Realizes p (Draft.text content) := by
  simp only [text, bind_eq_ok_iff, pure_eq_ok_iff] at h
  obtain ⟨q, hq, rfl⟩ := h
  exact realizes_quoted hq

theorem realizes_names {contents : List String} {p : Phrase} (h : names contents = .ok p) :
    Realizes p (Draft.names contents) := by
  simp only [names, bind_eq_ok_iff, pure_eq_ok_iff] at h
  obtain ⟨ps, hps, rfl⟩ := h
  exact .join (by decide) (realizes_mapM (fun _ _ => realizes_name) hps)

theorem realizes_interval {period : String} {p : Phrase} (h : interval period = .ok p) :
    Realizes p (Draft.interval period) := by
  simp only [interval, bind_eq_ok_iff, pure_eq_ok_iff] at h
  obtain ⟨q, hq, rfl⟩ := h
  exact ((Realizes.plain (by decide)).append (realizes_text hq)).append (.plain (by decide))

/-- The entry of a setting that is a period of time. -/
theorem realizes_period {key period : String} {p : Phrase}
    (hkey : CalmText (key ++ " = ").toList)
    (h : (do return setting key (← interval period) : Except Error Phrase) = .ok p) :
    Realizes p (setting key (Draft.interval period)) := by
  simp only [bind_eq_ok_iff, pure_eq_ok_iff] at h
  obtain ⟨written, hwritten, rfl⟩ := h
  exact .setting hkey (realizes_interval hwritten)

/-! ## Clauses of tables -/

/-- A type that can be written stands without the blanks around it. -/
theorem realizes_columnType {c : Column} {p : Phrase} (h : columnType c = .ok p) :
    Realizes p (plain (.ofList (Text.dropEnds Text.isBlank c.type.toList))) := by
  simp only [columnType] at h
  split at h
  · rename_i hchars
    cases h
    refine .plain ?_
    rw [String.toList_ofList]
    rw [Bool.and_eq_true, List.all_eq_true] at hchars
    exact calmText_of_typeChars hchars.2
  · cases h

theorem realizes_columnDefinition {c : Column} {p : Phrase} (h : columnDefinition c = .ok p) :
    Realizes p (Draft.column c) := by
  simp only [columnDefinition, bind_eq_ok_iff, pure_eq_ok_iff] at h
  obtain ⟨column, hcolumn, type, htype, family, hfamily, rfl⟩ := h
  have hfamilies : List.Forall₂ Realizes family
      (c.family.toList.map fun f => plain " FAMILY " ++ Draft.name f) := by
    refine realizes_mapM (fun f q hq => ?_) hfamily
    simp only [bind_eq_ok_iff, pure_eq_ok_iff] at hq
    obtain ⟨named, hnamed, rfl⟩ := hq
    exact (Realizes.plain (by decide)).append (realizes_name hnamed)
  exact (realizes_name hcolumn).append (.plain (by decide)) |>.append (realizes_columnType htype)
    |>.append (.flatten hfamilies)
    |>.append (.ite (fun _ => .plain (by decide)) fun _ => .nil)

theorem realizes_indexDefinition {i : Index} {p : Phrase} (h : indexDefinition i = .ok p) :
    Realizes p (Draft.index i) := by
  simp only [indexDefinition, refuse_eq_ok_iff, bind_eq_ok_iff, pure_eq_ok_iff] at h
  obtain ⟨-, index, hindex, columns, hcolumns, cover, hcover, rfl⟩ := h
  have hkind : CalmText (" GLOBAL " ++ kindKeyword i.kind ++ " ON (").toList := by
    cases i.kind with
    | sync => decide
    | async => decide
  exact (Realizes.plain (by decide)).append (realizes_name hindex) |>.append (.plain hkind)
    |>.append (realizes_names hcolumns) |>.append (.plain (by decide))
    |>.append (.ite (fun _ => .nil) fun _ => (Realizes.plain (by decide)).append
      (realizes_names hcover) |>.append (.plain (by decide)))

/-- An index that can be written is on some column. -/
theorem columns_ne_nil_of_indexDefinition {i : Index} {p : Phrase}
    (h : indexDefinition i = .ok p) : i.columns ≠ [] := by
  simp only [indexDefinition, refuse_eq_ok_iff] at h
  simpa using h.1

theorem realizes_familyDefinition {f : Family} {p : Phrase} (h : familyDefinition f = .ok p) :
    Realizes p (Draft.family f) := by
  simp only [familyDefinition, bind_eq_ok_iff, pure_eq_ok_iff] at h
  obtain ⟨family, hfamily, media, hmedia, compression, hcompression, rfl⟩ := h
  exact (Realizes.plain (by decide)).append (realizes_name hfamily) |>.append (.plain (by decide))
    |>.append (realizes_text hmedia) |>.append (.plain (by decide))
    |>.append (realizes_text hcompression) |>.append (.plain (by decide))

theorem realizes_primaryKey {columns : List String} {p : Phrase} (h : primaryKey columns = .ok p) :
    Realizes p (plain "PRIMARY KEY (" ++ Draft.names columns ++ plain ")") := by
  simp only [primaryKey, bind_eq_ok_iff, pure_eq_ok_iff] at h
  obtain ⟨key, hkey, rfl⟩ := h
  exact (Realizes.plain (by decide)).append (realizes_names hkey) |>.append (.plain (by decide))

/-! ## Settings of tables -/

theorem realizes_ttlEntry {t : Ttl} {p : Phrase} (h : ttlEntry t = .ok p) :
    Realizes p (Draft.ttl t) := by
  simp only [ttlEntry, bind_eq_ok_iff, pure_eq_ok_iff] at h
  obtain ⟨period, hperiod, column, hcolumn, rfl⟩ := h
  exact .setting (by decide) ((realizes_interval hperiod).append (.plain (by decide)) |>.append
    (realizes_name hcolumn))

/-- A value that can be written is the literal of its type. -/
theorem realizes_typedLiteral {c : Column} {content : String} {p : Phrase}
    (h : typedLiteral c content = .ok p) : Realizes p (Draft.literal c content) := by
  simp only [typedLiteral] at h
  unfold Draft.literal
  cases htype : literalTypes.lookup c.baseType with
  | none => rw [htype] at h; cases h
  | some type =>
    rw [htype] at h
    cases type with
    | integer range =>
      simp only at h ⊢
      cases hread : range.read? (Text.dropEnds Text.isBlank content.toList) with
      | none => rw [hread] at h; cases h
      | some i =>
        rw [hread] at h
        cases h
        exact .plain (calmText_ofInt i)
    | bool =>
      simp only at h ⊢
      cases hread : readBool? content.toList with
      | none => rw [hread] at h; cases h
      | some b =>
        rw [hread] at h
        cases h
        cases b with
        | true => exact .plain (by decide)
        | false => exact .plain (by decide)
    | text => exact realizes_text h

/-- A split point that can be written is the tuple of its literals. -/
theorem realizes_splitPoint {key : List Column} {point : List String} {p : Phrase}
    (h : splitPoint key point = .ok p) :
    Realizes p (bracketed ((key.zip point).map fun e => Draft.literal e.1 e.2)) := by
  unfold splitPoint at h
  split at h
  · cases h
  · simp only [bind_eq_ok_iff, pure_eq_ok_iff] at h
    obtain ⟨ps, hps, rfl⟩ := h
    exact .bracketed (realizes_mapM (fun _ _ => realizes_typedLiteral) hps)

theorem realizes_splitPointsEntries {key : List Column} {points : List (List String)}
    {ps : List Phrase} (h : splitPointsEntries key points = .ok ps) :
    List.Forall₂ Realizes ps
      (if points.isEmpty then []
      else [setting "PARTITION_AT_KEYS" (Draft.splitPoints key points)]) := by
  unfold splitPointsEntries at h
  by_cases hempty : points.isEmpty
  · rw [if_pos hempty] at h ⊢
    cases h
    exact .nil
  · rw [if_neg hempty] at h ⊢
    simp only [splitPoints, bind_eq_ok_iff, pure_eq_ok_iff] at h
    obtain ⟨_, ⟨qs, hqs, rfl⟩, rfl⟩ := h
    refine realizes_singleton (.setting (by decide) (.bracketed ?_))
    exact realizes_mapM (fun _ _ => realizes_splitPoint) hqs

theorem realizes_partitioningFlags (p : Partitioning) :
    List.Forall₂ Realizes (partitioningFlags p) (partitioningFlags p) := by
  unfold partitioningFlags
  refine List.rel_append (List.rel_append (List.rel_append (List.rel_append (List.rel_append ?_ ?_)
    ?_) ?_) ?_) ?_
  · exact realizes_optional fun b => .setting (by decide) (.toggle b)
  · exact realizes_optional fun b => .setting (by decide) (.toggle b)
  all_goals exact realizes_optional fun n => .setting (by decide) (.number n)

theorem realizes_partitioningEntries {key : List Column} {p : Partitioning} {ps : List Phrase}
    (h : partitioningEntries key p = .ok ps) :
    List.Forall₂ Realizes ps (Draft.partitioning key p) := by
  simp only [partitioningEntries, bind_eq_ok_iff, pure_eq_ok_iff] at h
  obtain ⟨points, hpoints, rfl⟩ := h
  exact List.rel_append (realizes_partitioningFlags p) (realizes_splitPointsEntries hpoints)

theorem realizes_replicasEntry {replicas : String} {p : Phrase}
    (h : replicasEntry replicas = .ok p) :
    Realizes p (setting "READ_REPLICAS_SETTINGS" (Draft.text replicas)) := by
  simp only [replicasEntry, bind_eq_ok_iff, pure_eq_ok_iff] at h
  obtain ⟨q, hq, rfl⟩ := h
  exact .setting (by decide) (realizes_text hq)

theorem realizes_settingsEntries {key : List Column} {s : TableSettings} {ps : List Phrase}
    (h : settingsEntries key s = .ok ps) : List.Forall₂ Realizes ps (Draft.settings key s) := by
  simp only [settingsEntries, ifSome, bind_eq_ok_iff, pure_eq_ok_iff] at h
  obtain ⟨ttl, httl, partitioning, hpartitioning, replicas, hreplicas, rfl⟩ := h
  exact List.rel_append (List.rel_append (realizes_mapM (fun _ _ => realizes_ttlEntry) httl)
    (realizes_partitioningEntries hpartitioning))
    (realizes_mapM (fun _ _ => realizes_replicasEntry) hreplicas)

/-- The key of an attribute is calm. -/
theorem calmText_of_isAttributeKey {key : String} (h : isAttributeKey key = true) :
    CalmText (key ++ " = ").toList := by
  rw [isAttributeKey, Bool.and_eq_true, List.all_eq_true] at h
  rw [String.toList_append]
  refine calmText_append (calmText_of_typeChars fun c hc => ?_) (by decide)
  have hkey := h.2 c hc
  rw [Bool.or_eq_true, decide_eq_true_eq] at hkey
  rcases hkey with hkey | rfl
  · rw [isTypeChar, hkey, Bool.true_or]
  · decide

theorem realizes_attributeEntry {key value : String} {p : Phrase}
    (h : attributeEntry key value = .ok p) : Realizes p (setting key (Draft.text value)) := by
  simp only [attributeEntry, refuse_eq_ok_iff, bind_eq_ok_iff, pure_eq_ok_iff] at h
  obtain ⟨hkey, q, hq, rfl⟩ := h
  rw [Bool.not_eq_true', Bool.not_eq_false] at hkey
  exact .setting (calmText_of_isAttributeKey hkey) (realizes_text hq)

theorem realizes_attributeEntries {a : Attributes} {ps : List Phrase}
    (h : attributeEntries a = .ok ps) : List.Forall₂ Realizes ps (Draft.attributes a) :=
  realizes_mapM (fun _ _ => realizes_attributeEntry) h

theorem realizes_switch {key : String} (hkey : CalmText (key ++ " = ").toList) (enabled : Bool) :
    List.Forall₂ Realizes (switch key enabled) (switch key enabled) := by
  cases enabled with
  | true => exact realizes_singleton (.setting hkey (.plain (by decide)))
  | false => exact .nil

theorem realizes_changefeedEntries {f : Changefeed} {ps : List Phrase}
    (h : changefeedEntries f = .ok ps) : List.Forall₂ Realizes ps (Draft.changefeed f) := by
  simp only [changefeedEntries, ifSome, bind_eq_ok_iff, pure_eq_ok_iff] at h
  obtain ⟨mode, hmode, format, hformat, retention, hretention, rfl⟩ := h
  refine List.rel_append (List.rel_append (List.rel_append ?_ ?_) ?_) ?_
  · exact .cons (.setting (by decide) (realizes_text hmode))
      (realizes_singleton (.setting (by decide) (realizes_text hformat)))
  · exact realizes_switch (by decide) _
  · exact realizes_mapM (fun _ _ => realizes_period (by decide)) hretention
  · exact realizes_switch (by decide) _

/-! ## Clauses of topics -/

theorem realizes_codecEntries {codecs : List Codec} {ps : List Phrase}
    (h : codecEntries codecs = .ok ps) : List.Forall₂ Realizes ps (Draft.codecs codecs) := by
  unfold codecEntries at h
  unfold Draft.codecs
  by_cases hempty : codecs.isEmpty
  · rw [if_pos hempty] at h ⊢
    cases h
    exact .nil
  · rw [if_neg hempty] at h ⊢
    simp only [codecList, bind_eq_ok_iff, pure_eq_ok_iff] at h
    obtain ⟨q, hq, rfl⟩ := h
    exact realizes_singleton (.setting (by decide) (realizes_text hq))

theorem realizes_readFromEntry {t : Timestamp} {p : Phrase} (h : readFromEntry t = .ok p) :
    Realizes p (Draft.readFrom t) := by
  simp only [readFromEntry, datetime, bind_eq_ok_iff, pure_eq_ok_iff] at h
  obtain ⟨_, ⟨q, hq, rfl⟩, rfl⟩ := h
  exact .setting (by decide)
    ((Realizes.plain (by decide)).append (realizes_text hq) |>.append (.plain (by decide)))

theorem realizes_consumerDefinition {c : Consumer} {p : Phrase}
    (h : consumerDefinition c = .ok p) : Realizes p (Draft.consumer c) := by
  simp only [consumerDefinition, consumerEntries, bind_eq_ok_iff, pure_eq_ok_iff] at h
  obtain ⟨consumer, hconsumer, _, ⟨codecs, hcodecs, position, hposition, rfl⟩, rfl⟩ := h
  exact (Realizes.plain (by decide)).append (realizes_name hconsumer)
    |>.append (.plain (by decide)) |>.append (.bracketed (List.rel_append
      (realizes_codecEntries hcodecs) (realizes_singleton (realizes_readFromEntry hposition))))

theorem realizes_topicEntries {s : TopicSettings} {ps : List Phrase}
    (h : topicEntries s = .ok ps) : List.Forall₂ Realizes ps (Draft.topic s) := by
  simp only [topicEntries, ifSome, bind_eq_ok_iff, pure_eq_ok_iff] at h
  obtain ⟨retention, hretention, codecs, hcodecs, rfl⟩ := h
  refine List.rel_append (List.rel_append ?_ ?_) (realizes_codecEntries hcodecs)
  · exact realizes_optional fun n => .setting (by decide) (.number n)
  · exact realizes_mapM (fun _ _ => realizes_period (by decide)) hretention

/-! ## Statements -/

/-- The columns of the key are those of its names that are declared. -/
theorem eq_of_keyColumns {t : Table} {key : List Column} (h : keyColumns t = .ok key) :
    key = t.primaryKey.filterMap t.column? := by
  have hkey := mapM_eq_ok_iff.1 h
  clear h
  generalize t.primaryKey = columns at hkey ⊢
  induction hkey with
  | nil => rfl
  | @cons column c _ _ hc _ ih =>
    cases hfound : t.column? column with
    | none => rw [hfound] at hc; cases hc
    | some found =>
      rw [hfound] at hc
      cases hc
      rw [List.filterMap_cons, hfound, ih]

/-- The creation of a table that can be written is its draft. -/
theorem realizes_createTable {t : Table} {p : Phrase} (h : createTable t = .ok p) :
    Realizes p (Draft.createTable t) := by
  simp only [createTable, refuse_eq_ok_iff, bind_eq_ok_iff, pure_eq_ok_iff] at h
  obtain ⟨-, -, columns, hcolumns, indexes, hindexes, primary, hprimary, families, hfamilies,
    table, htable, key, hkey, settings, hsettings, attributes, hattributes, rfl⟩ := h
  rw [eq_of_keyColumns hkey] at hsettings
  have hbody := List.rel_append (List.rel_append (List.rel_append
    (realizes_mapM (fun _ _ => realizes_columnDefinition) hcolumns)
    (realizes_mapM (fun _ _ => realizes_indexDefinition) hindexes))
    (realizes_singleton (realizes_primaryKey hprimary)))
    (realizes_mapM (fun _ _ => realizes_familyDefinition) hfamilies)
  have hwith := List.rel_append (realizes_settingsEntries hsettings)
    (realizes_attributeEntries hattributes)
  exact (Realizes.plain (by decide)).append (realizes_name htable) |>.append (.bracketBlock hbody)
    |>.append (.withBlock hwith) |>.append (.plain (by decide))

theorem realizes_alterTable {table : String} {p : Phrase} (h : alterTable table = .ok p) :
    Realizes p (Draft.alterTable table) := by
  simp only [alterTable, bind_eq_ok_iff, pure_eq_ok_iff] at h
  obtain ⟨named, hnamed, rfl⟩ := h
  exact (Realizes.plain (by decide)).append (realizes_name hnamed)

theorem realizes_createTopic {t : Topic} {p : Phrase} (h : createTopic t = .ok p) :
    Realizes p (Draft.createTopic t) := by
  simp only [createTopic, bind_eq_ok_iff, pure_eq_ok_iff] at h
  obtain ⟨topic, htopic, consumers, hconsumers, settings, hsettings, rfl⟩ := h
  have hentries := realizes_mapM (fun _ _ => realizes_consumerDefinition) hconsumers
  have hbody : Realizes (if consumers.isEmpty then [] else bracketBlock consumers)
      (if t.consumers.isEmpty then [] else bracketBlock (t.consumers.map Draft.consumer)) := by
    cases hcs : t.consumers with
    | nil =>
      rw [hcs] at hentries
      cases hentries
      exact .nil
    | cons c cs =>
      rw [hcs] at hentries
      cases hentries with
      | cons hp hps => exact .bracketBlock (.cons hp hps)
  exact (Realizes.plain (by decide)).append (realizes_name htopic) |>.append hbody
    |>.append (.withBlock (realizes_topicEntries hsettings)) |>.append (.plain (by decide))

theorem realizes_alterTopicNamed {topic : String} {p : Phrase}
    (h : alterTopicNamed topic = .ok p) : Realizes p (Draft.alterTopic topic) := by
  simp only [alterTopicNamed, bind_eq_ok_iff, pure_eq_ok_iff] at h
  obtain ⟨named, hnamed, rfl⟩ := h
  exact (Realizes.plain (by decide)).append (realizes_name hnamed)

theorem realizes_changeConsumer {topic : String} {change : ConsumerChange} {p : Phrase}
    (h : changeConsumer topic change = .ok p) :
    Realizes p (Draft.changeConsumer topic change) := by
  simp only [changeConsumer, bind_eq_ok_iff] at h
  obtain ⟨alter, halter, h⟩ := h
  have halter := realizes_alterTopicNamed halter
  cases change with
  | add c =>
    simp only [bind_eq_ok_iff, pure_eq_ok_iff] at h
    obtain ⟨definition, hdefinition, rfl⟩ := h
    exact halter.append (.plain (by decide)) |>.append (realizes_consumerDefinition hdefinition)
  | setReadFrom c position =>
    simp only [bind_eq_ok_iff, pure_eq_ok_iff] at h
    obtain ⟨named, hnamed, entry, hentry, rfl⟩ := h
    exact halter.append (.plain (by decide)) |>.append (realizes_name hnamed)
      |>.append (.plain (by decide))
      |>.append (.bracketed (realizes_singleton (realizes_readFromEntry hentry)))
  | setCodecs c codecs =>
    simp only [refuse_eq_ok_iff, bind_eq_ok_iff, pure_eq_ok_iff] at h
    obtain ⟨-, named, hnamed, entries, hentries, rfl⟩ := h
    exact halter.append (.plain (by decide)) |>.append (realizes_name hnamed)
      |>.append (.plain (by decide)) |>.append (.bracketed (realizes_codecEntries hentries))

/-- A statement that can be written is the draft of its operation in quotes. -/
theorem realizes_phrase {operation : Operation} {p : Phrase} (h : operation.phrase = .ok p) :
    Realizes p operation.draft := by
  cases operation with
  | createTable table => exact realizes_createTable h
  | addColumn table column =>
    simp only [Operation.phrase, addColumn, bind_eq_ok_iff, pure_eq_ok_iff] at h
    obtain ⟨alter, halter, definition, hdefinition, rfl⟩ := h
    exact (realizes_alterTable halter).append (.plain (by decide))
      |>.append (realizes_columnDefinition hdefinition)
  | addIndex table index =>
    simp only [Operation.phrase, addIndex, bind_eq_ok_iff, pure_eq_ok_iff] at h
    obtain ⟨alter, halter, definition, hdefinition, rfl⟩ := h
    exact (realizes_alterTable halter).append (.plain (by decide))
      |>.append (realizes_indexDefinition hdefinition)
  | dropIndex table index =>
    simp only [Operation.phrase, dropIndex, bind_eq_ok_iff, pure_eq_ok_iff] at h
    obtain ⟨alter, halter, named, hnamed, rfl⟩ := h
    exact (realizes_alterTable halter).append (.plain (by decide)) |>.append (realizes_name hnamed)
  | addChangefeed table f =>
    simp only [Operation.phrase, addChangefeed, bind_eq_ok_iff, pure_eq_ok_iff] at h
    obtain ⟨entries, hentries, alter, halter, named, hnamed, rfl⟩ := h
    exact (realizes_alterTable halter).append (.plain (by decide)) |>.append (realizes_name hnamed)
      |>.append (.plain (by decide)) |>.append (.bracketed (realizes_changefeedEntries hentries))
  | dropChangefeed table feed =>
    simp only [Operation.phrase, dropChangefeed, bind_eq_ok_iff, pure_eq_ok_iff] at h
    obtain ⟨alter, halter, named, hnamed, rfl⟩ := h
    exact (realizes_alterTable halter).append (.plain (by decide)) |>.append (realizes_name hnamed)
  | setTableSettings table settings =>
    simp only [Operation.phrase, setTableSettings, refuse_eq_ok_iff, bind_eq_ok_iff,
      pure_eq_ok_iff] at h
    obtain ⟨entries, hentries, -, alter, halter, rfl⟩ := h
    exact (realizes_alterTable halter).append (.plain (by decide))
      |>.append (.bracketed (realizes_settingsEntries hentries))
  | resetTtl table =>
    simp only [Operation.phrase, resetTtl, bind_eq_ok_iff, pure_eq_ok_iff] at h
    obtain ⟨alter, halter, rfl⟩ := h
    exact (realizes_alterTable halter).append (.plain (by decide))
  | createTopic topic => exact realizes_createTopic h
  | alterTopic topic settings =>
    simp only [Operation.phrase, alterTopic, refuse_eq_ok_iff, bind_eq_ok_iff,
      pure_eq_ok_iff] at h
    obtain ⟨entries, hentries, -, alter, halter, rfl⟩ := h
    exact (realizes_alterTopicNamed halter).append (.plain (by decide))
      |>.append (.bracketed (realizes_topicEntries hentries))
  | changeConsumer topic change => exact realizes_changeConsumer h

end SchemaPlan.Ddl
