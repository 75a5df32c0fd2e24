import SchemaPlan.Proofs.Ddl.StatementReader
import SchemaPlan.Proofs.Plan.Containment

/-!
# Statements are unambiguous

`ofStatement?_statement` : the statement of an operation that defines no columns is read as the
operation, up to what it does not say. So two such operations have one statement exactly if they are
the same up to this (`statement_eq_iff`). The words at the front of a statement and of its clause
tell what it does: where a reader for other words comes first, these words do not fit.
-/

namespace SchemaPlan

open Ddl

namespace Ddl

/-! ## Finding the reader -/

section

variable {readers : List ClauseReader} {k : Nat} {word target : String}
  {read : String → List Piece → Option Operation} {ps : List Piece} {rest : Draft}
  {operation : Operation}

/-- What follows the words of a reader is read by it, if no words before them fit. -/
theorem findSome?_afterWord? {next : ClauseReader → List Piece → Option Operation}
    (hk : readers[k]? = some ⟨word, read⟩)
    (hbefore : ((readers.take k).findSome? fun r =>
      afterWord? r.word (pieces (plain word) ++ ps)) = none)
    (hnext : next ⟨word, read⟩ ps = some operation) :
    (readers.findSome? fun r => (afterWord? r.word (pieces (plain word) ++ ps)).bind (next r)) =
      some operation := by
  obtain ⟨hlt, hget⟩ := List.getElem?_eq_some_iff.1 hk
  rw [List.findSome?_eq_none_iff] at hbefore
  refine List.findSome?_eq_some_iff.2
    ⟨readers.take k, ⟨word, read⟩, readers.drop (k + 1), ?_, ?_, fun r hr => ?_⟩
  · rw [← hget, List.getElem_cons_drop, List.take_append_drop]
  · rw [afterWord?_append, Option.bind_some, hnext]
  · rw [hbefore r hr, Option.bind_none]

/-- The reader of a clause is the one for its words, if no words before them fit. -/
theorem readClause?_of_getElem? (hk : readers[k]? = some ⟨word, read⟩)
    (hbefore : ((readers.take k).findSome? fun r =>
      afterWord? r.word (pieces (plain word) ++ ps)) = none)
    (hread : read target ps = some operation) :
    readClause? readers target (pieces (plain word) ++ ps) = some operation :=
  findSome?_afterWord? hk hbefore hread

/-- The reader of a statement is the one for its words, if no words before them fit. -/
theorem readStatement?_of_getElem? (hk : statementReaders[k]? = some ⟨word, read⟩)
    (hbefore : ((statementReaders.take k).findSome? fun r =>
      afterWord? r.word (pieces (plain word) ++ .region .name target.toList :: ps)) = none)
    (hread : read target ps = some operation) :
    readStatement? (pieces (plain word) ++ .region .name target.toList :: ps) =
      some operation := by
  refine findSome?_afterWord? hk hbefore ?_
  simp only [takeQuoted?_region, Option.bind_eq_bind, Option.bind_some, String.ofList_toList,
    hread]

/-- A statement about a table is read by the reader for the words of its clause. -/
theorem readStatement?_alterTable (hk : tableClauses[k]? = some ⟨word, read⟩)
    (hbefore : ((tableClauses.take k).findSome? fun r =>
      afterWord? r.word (pieces (plain word) ++ pieces rest)) = none)
    (hread : read target (pieces rest) = some operation) :
    readStatement? (pieces (Draft.alterTable target ++ plain word ++ rest)) = some operation := by
  have hdraft : pieces (Draft.alterTable target ++ plain word ++ rest) =
      pieces (plain "ALTER TABLE ")
        ++ .region .name target.toList :: (pieces (plain word) ++ pieces rest) := by
    simp [Draft.alterTable]
  rw [hdraft]
  exact readStatement?_of_getElem? (k := 0) rfl rfl (readClause?_of_getElem? hk hbefore hread)

/-- A statement about a topic is read by the reader for the words of its clause. -/
theorem readStatement?_alterTopic (hk : topicClauses[k]? = some ⟨word, read⟩)
    (hbefore : ((topicClauses.take k).findSome? fun r =>
      afterWord? r.word (pieces (plain word) ++ pieces rest)) = none)
    (hread : read target (pieces rest) = some operation) :
    readStatement? (pieces (Draft.alterTopic target ++ plain word ++ rest)) = some operation := by
  have hdraft : pieces (Draft.alterTopic target ++ plain word ++ rest) =
      pieces (plain "ALTER TOPIC ")
        ++ .region .name target.toList :: (pieces (plain word) ++ pieces rest) := by
    simp [Draft.alterTopic]
  rw [hdraft]
  exact readStatement?_of_getElem? (k := 1) rfl rfl (readClause?_of_getElem? hk hbefore hread)

end

/-! ## The creation of a topic -/

/-- The body of the creation of a topic. -/
def topicBody (consumers : List Consumer) : Draft :=
  if consumers.isEmpty then [] else bracketBlock (consumers.map Draft.consumer)

/-- What follows the body of the creation of a topic. -/
def afterTopicBody (t : Topic) : Draft :=
  withBlock (Draft.topic ⟨t.partitions, t.retention, t.codecs⟩) ++ plain "\n"

/-- The consumers of a creation are read as they are said, and the settings are left. -/
theorem takeConsumers?_topicBody (t : Topic) :
    takeConsumers? (pieces (topicBody t.consumers) ++ pieces (afterTopicBody t)) =
      some (t.consumers.map Consumer.written, pieces (afterTopicBody t)) := by
  cases hconsumers : t.consumers with
  | nil =>
    have hnone : group? (pieces (afterTopicBody t)) = none := by
      unfold afterTopicBody
      cases Draft.topic ⟨t.partitions, t.retention, t.codecs⟩ with
      | nil => rfl
      | cons d ds => rfl
    have hbody : pieces (topicBody []) = [] := rfl
    rw [hbody, List.nil_append, takeConsumers?, hnone]
    rfl
  | cons c consumers =>
    have hbody : topicBody (c :: consumers) =
        bracketBlock ((c :: consumers).map Draft.consumer) := rfl
    have hlist : ∀ d ∈ (c :: consumers).map Draft.consumer, Listable d :=
      List.forall_mem_map.2 fun c _ => listable_consumer c
    have hread : (((c :: consumers).map Draft.consumer).map pieces).mapM readConsumer? =
        some ((c :: consumers).map Consumer.written) := by
      rw [List.map_map]
      exact mapM_map_eq_some fun c _ => readConsumer?_consumer c
    rw [hbody, takeConsumers?, group?_bracketBlock (by simp) hlist]
    simp only [hread, Option.bind_eq_bind, Option.bind_some, Option.pure_def]

/-- A topic is read from its creation as the topic that it says. -/
theorem readTopic?_topic (t : Topic) :
    readTopic? t.path (pieces (topicBody t.consumers) ++ pieces (afterTopicBody t)) =
      some t.written := by
  have hsettings : readSettings? (pieces (afterTopicBody t)) =
      some (topicValues ⟨t.partitions, t.retention, t.codecs⟩) :=
    readSettings?_withBlock (listable_topic _) (mapM_readSetting?_topic _)
  simp only [readTopic?, takeConsumers?_topicBody, hsettings, readTopicSettings_topicValues,
    Option.bind_eq_bind, Option.bind_some, Option.pure_def]
  rfl

/-- The creation of a topic is read back as the one that it says. -/
theorem readStatement?_createTopic (t : Topic) :
    readStatement? (pieces (Draft.createTopic t)) = some (.createTopic t.written) := by
  have hdraft : pieces (Draft.createTopic t) = pieces (plain "CREATE TOPIC ")
      ++ .region .name t.path.toList
        :: (pieces (topicBody t.consumers) ++ pieces (afterTopicBody t)) := by
    simp [Draft.createTopic, topicBody, afterTopicBody]
  rw [hdraft]
  refine readStatement?_of_getElem? (k := 2) rfl rfl ?_
  rw [readTopic?_topic, Option.map_some]

/-! ## Operations -/

theorem readStatement?_changeConsumer {topic : String} {change : ConsumerChange} {p : Phrase}
    (h : changeConsumer topic change = .ok p) :
    readStatement? (pieces (Draft.changeConsumer topic change)) =
      some (.changeConsumer topic change.written) := by
  cases change with
  | add c =>
    refine readStatement?_alterTopic (k := 0) rfl rfl ?_
    rw [readConsumer?_consumer]
    rfl
  | setReadFrom name position =>
    simp only [Draft.changeConsumer, List.append_assoc]
    rw [← List.append_assoc, ← List.append_assoc (Draft.name name)]
    refine readStatement?_alterTopic (k := 1) rfl rfl ?_
    rw [readConsumerChange?_setReadFrom]
    rfl
  | setCodecs name codecs =>
    simp only [changeConsumer, bind_eq_ok_iff, refuse_eq_ok_iff] at h
    obtain ⟨-, -, hcodecs, -⟩ := h
    simp only [Draft.changeConsumer, List.append_assoc]
    rw [← List.append_assoc, ← List.append_assoc (Draft.name name)]
    refine readStatement?_alterTopic (k := 1) rfl rfl ?_
    rw [readConsumerChange?_setCodecs name (by simpa using hcodecs)]
    rfl

/-- The draft of an operation that can be written is read as what is written of it. -/
theorem readStatement?_draft {operation : Operation} {p : Phrase} (h : operation.phrase = .ok p)
    (hcolumns : operation.definesColumns = false) :
    readStatement? (pieces operation.draft) = some operation.written := by
  cases operation with
  | createTable table => cases hcolumns
  | addColumn table column => cases hcolumns
  | addIndex table index =>
    simp only [Operation.phrase, addIndex, bind_eq_ok_iff] at h
    obtain ⟨-, -, definition, hdefinition, -⟩ := h
    refine readStatement?_alterTable (k := 1) rfl rfl ?_
    rw [readIndex?_index (columns_ne_nil_of_indexDefinition hdefinition)]
    rfl
  | dropIndex table name =>
    refine readStatement?_alterTable (k := 2) rfl rfl ?_
    rw [quoted?_name]
    rfl
  | addChangefeed table f =>
    simp only [Operation.draft, List.append_assoc]
    rw [← List.append_assoc, ← List.append_assoc (Draft.name f.name)]
    refine readStatement?_alterTable (k := 0) rfl rfl ?_
    rw [readChangefeed?_changefeed]
    rfl
  | dropChangefeed table name =>
    refine readStatement?_alterTable (k := 3) rfl rfl ?_
    rw [quoted?_name]
    rfl
  | setTableSettings table settings =>
    simp only [Operation.phrase, setTableSettings, refuse_eq_ok_iff, bind_eq_ok_iff] at h
    obtain ⟨entries, hentries, hsome, -⟩ := h
    have hne := (not_isEmpty_iff_of_realizes (realizes_settingsEntries hentries)).1 hsome
    refine readStatement?_alterTable (k := 4) rfl rfl ?_
    rw [readEntries?_settings hne, Option.map_some, readTableSettings_settings hentries]
    rfl
  | resetTtl table =>
    rw [Operation.draft, ← List.append_nil (Draft.alterTable table ++ plain " RESET (TTL)")]
    exact readStatement?_alterTable (k := 5) rfl rfl rfl
  | createTopic topic => exact readStatement?_createTopic topic
  | alterTopic topic settings =>
    simp only [Operation.phrase, alterTopic, refuse_eq_ok_iff, bind_eq_ok_iff] at h
    obtain ⟨entries, hentries, hsome, -⟩ := h
    have hne := (not_isEmpty_iff_of_realizes (realizes_topicEntries hentries)).1 hsome
    have hread := readEntries?_bracketed hne (listable_topic settings)
      (mapM_readSetting?_topic settings)
    refine readStatement?_alterTopic (k := 2) rfl rfl ?_
    rw [hread, Option.map_some, readTopicSettings_topicValues]
    rfl
  | changeConsumer topic change => exact readStatement?_changeConsumer h

end Ddl

/-! ## What a statement leaves out -/

namespace Timestamp

/-- A fraction of a second is not written. -/
theorem writeSeconds_wholeSeconds (t : Timestamp) :
    t.wholeSeconds.writeSeconds = t.writeSeconds := by
  have hdate : t.wholeSeconds.date = t.date := rfl
  have hsecond : t.wholeSeconds.secondOfDay = t.secondOfDay := rfl
  have htime : t.wholeSeconds.writeTime = t.writeTime := by
    rw [writeTime, writeTime, isLeap_wholeSeconds, hsecond]
  rw [writeSeconds, writeSeconds, chars, chars, hdate, htime, if_neg Bool.false_ne_true,
    if_neg Bool.false_ne_true]

/-- The instant that a statement says is written as the statement says it. -/
theorem writeSeconds_written (t : Timestamp) : t.written.writeSeconds = t.writeSeconds := by
  rw [written, writeSeconds, chars_asRead, ← writeSeconds, writeSeconds_wholeSeconds]

/-- Said as its second is just an instant without a leap second inside a minute. -/
theorem written_eq_wholeSeconds_iff (t : Timestamp) :
    t.written = t.wholeSeconds ↔ t.LeapEndsMinute :=
  asRead_eq_self_iff.trans leapEndsMinute_wholeSeconds

section

variable {t : Timestamp} (h : ¬t.LeapEndsMinute)

include h

/-- A leap second inside a minute is said as the second after it. -/
theorem seconds_written : t.written.seconds = t.seconds + 1 :=
  seconds_asRead (leapEndsMinute_wholeSeconds.not.2 h)

/-- A leap second inside a minute is said without a fraction of a second. -/
theorem nanos_written : t.written.nanos = 0 := by
  have hleap : t.isLeap = true := decide_eq_true (not_leapEndsMinute_iff.1 h).1
  rw [written, nanos_asRead (leapEndsMinute_wholeSeconds.not.2 h), nanos_wholeSeconds,
    if_pos hleap]

end

end Timestamp

/-- There is one partitioning in which nothing is set. -/
theorem Partitioning.eq_of_isEmpty {p : Partitioning} (h : p.isEmpty = true) : p = {} := by
  simp only [isEmpty, Bool.and_eq_true, Option.isNone_iff_eq_none, List.isEmpty_iff] at h
  obtain ⟨⟨⟨⟨⟨⟨h1, h2⟩, h3⟩, h4⟩, h5⟩, h6⟩, h7⟩ := h
  rw [Partitioning.mk.injEq]
  exact ⟨h1, h2, h3, h4, h5, h6, h7⟩

namespace Ddl

/-- Groups in which nothing is set are not written. -/
theorem settingsEntries_written (key : List Column) (s : TableSettings) :
    settingsEntries key s.written = settingsEntries key s := by
  have hpartitioning : s.written.partitioning.getD {} = s.partitioning.getD {} := by
    rw [TableSettings.written]
    cases s.partitioning with
    | none => rfl
    | some p =>
      rw [Option.filter_some]
      split
      · rfl
      · rename_i hempty
        rw [Bool.not_eq_true', Bool.not_eq_false] at hempty
        rw [Partitioning.eq_of_isEmpty hempty]
        rfl
  have hreplication : s.written.replication.bind Replication.readReplicas =
      s.replication.bind Replication.readReplicas := by
    rw [TableSettings.written]
    cases s.replication.bind Replication.readReplicas with
    | none => rfl
    | some replicas => rfl
  rw [settingsEntries, settingsEntries, hpartitioning, hreplication]
  rfl

/-- The text of a consumer does not depend on more of its read position than the text of that. -/
theorem consumerDefinition_congr {c d : Consumer} (hname : c.name = d.name)
    (hcodecs : c.codecs = d.codecs)
    (hposition : c.readFrom.writeSeconds = d.readFrom.writeSeconds) :
    consumerDefinition c = consumerDefinition d := by
  simp only [consumerDefinition, consumerEntries, readFromEntry, datetime, hname, hcodecs,
    hposition]

end Ddl

section MapReadPositions

variable {f : Timestamp → Timestamp} (hf : ∀ t, (f t).writeSeconds = t.writeSeconds)

include hf

/-- Read positions that have one text may be changed into one another. -/
theorem phrase_mapReadPositions (operation : Operation) :
    (operation.mapReadPositions f).phrase = operation.phrase := by
  have hdefinition : ∀ c : Consumer,
      consumerDefinition { c with readFrom := f c.readFrom } = consumerDefinition c :=
    fun c => consumerDefinition_congr rfl rfl (hf c.readFrom)
  cases operation with
  | createTopic topic =>
    simp only [Operation.mapReadPositions, Operation.phrase, createTopic, List.mapM_map,
      Function.comp_def, hdefinition]
  | changeConsumer topic change =>
    cases change with
    | add c => simp only [Operation.mapReadPositions, Operation.phrase, changeConsumer, hdefinition]
    | setReadFrom name t =>
      simp only [Operation.mapReadPositions, Operation.phrase, changeConsumer, readFromEntry,
        datetime, hf]
    | setCodecs name codecs => rfl
  | _ => rfl

/-- The statement does not change either. -/
theorem statement_mapReadPositions (operation : Operation) :
    (operation.mapReadPositions f).statement = operation.statement := by
  rw [Operation.statement, phrase_mapReadPositions hf, Operation.statement]

end MapReadPositions

/-- The operation that a statement says has this statement. -/
theorem phrase_written (operation : Operation) : operation.written.phrase = operation.phrase := by
  have hpositions := phrase_mapReadPositions Timestamp.writeSeconds_written operation
  cases operation with
  | setTableSettings table settings =>
    simp only [Operation.written, Operation.phrase, setTableSettings, settingsEntries_written]
  | changeConsumer topic change => cases change <;> exact hpositions
  | _ => exact hpositions

/-- An operation and the one that it says have the same statement. -/
theorem statement_written (operation : Operation) :
    operation.written.statement = operation.statement := by
  rw [Operation.statement, phrase_written, Operation.statement]

/-! ## One statement, one operation -/

/-- The statement of an operation is read as what is written of the operation. -/
theorem ofStatement?_statement {operation : Operation} {s : String}
    (h : operation.statement = .ok s) (hcolumns : operation.definesColumns = false) :
    Operation.ofStatement? s = some operation.written := by
  obtain ⟨p, hp, -⟩ := map_eq_ok_iff.1 h
  rw [Operation.ofStatement?, (regions?_statement h).1, Option.bind_some,
    readStatement?_draft hp hcolumns]

/-- An operation that defines no columns has the statement of another one exactly if both statements
say the same operation : the same up to fractions of seconds, leap seconds that do not end a minute
and the seconds after them, and groups of settings in which nothing is set. A read position is said
as its second unless it lies in such a leap second; then as the second after it. -/
theorem statement_eq_iff {a b : Operation} {s : String} (ha : a.definesColumns = false)
    (hb : b.definesColumns = false) (h : a.statement = .ok s) :
    (b.statement = .ok s ↔ a.written = b.written) ∧
    ∀ t : Timestamp, (t.written = t.wholeSeconds ↔ t.LeapEndsMinute) ∧
      (¬t.LeapEndsMinute → t.written.seconds = t.seconds + 1 ∧ t.written.nanos = 0) := by
  refine ⟨⟨fun hsame => ?_, fun hwritten => ?_⟩, fun t => ⟨t.written_eq_wholeSeconds_iff, fun ht =>
    ⟨Timestamp.seconds_written ht, Timestamp.nanos_written ht⟩⟩⟩
  · have hread := ofStatement?_statement h ha
    rw [ofStatement?_statement hsame hb, Option.some.injEq] at hread
    exact hread.symm
  · rw [← statement_written b, ← hwritten, statement_written, h]

/-- A quarter of a second past the first minute and a half. -/
def quarterPast : Timestamp :=
  ⟨90, 250000000, by decide, by decide⟩

/-- Reading from an instant with a fraction of a second. -/
def readFromQuarter : Operation :=
  .changeConsumer "feed" (.setReadFrom "mail" quarterPast)

theorem statement_readFromQuarter : readFromQuarter.statement = .ok ("ALTER TOPIC `feed` " ++
    "ALTER CONSUMER `mail` SET (read_from = Datetime(\"1970-01-01T00:01:30Z\"))") := by
  decide +kernel

/-- A position and its whole second have one statement, and the epoch has another. -/
theorem statement_eq_iff_readFrom :
    (Operation.changeConsumer "feed" (.setReadFrom "mail" quarterPast.wholeSeconds)).statement =
        readFromQuarter.statement ∧
      (Operation.changeConsumer "feed" (.setReadFrom "mail" .epoch)).statement ≠
        readFromQuarter.statement := by
  rw [statement_readFromQuarter]
  refine ⟨(statement_eq_iff rfl rfl statement_readFromQuarter).1.2 (by decide), fun hsame => ?_⟩
  have hwritten := (statement_eq_iff rfl rfl statement_readFromQuarter).1.1 hsame
  revert hwritten
  decide

/-- An instant in the leap second after the first second of the eleventh minute. -/
def leapInMinute : Timestamp :=
  ⟨600, 1100000000, by decide, by decide⟩

/-- An instant in the second after it. -/
def afterLeapInMinute : Timestamp :=
  ⟨601, 200000000, by decide, by decide⟩

/-- A leap second that does not end a minute and the second after it have one statement, and they
are not the same up to a fraction of a second. -/
theorem statement_leapInMinute :
    (Operation.changeConsumer "feed" (.setReadFrom "mail" leapInMinute)).statement =
      .ok ("ALTER TOPIC `feed` " ++
        "ALTER CONSUMER `mail` SET (read_from = Datetime(\"1970-01-01T00:10:01Z\"))") ∧
    (Operation.changeConsumer "feed" (.setReadFrom "mail" afterLeapInMinute)).statement =
      .ok ("ALTER TOPIC `feed` " ++
        "ALTER CONSUMER `mail` SET (read_from = Datetime(\"1970-01-01T00:10:01Z\"))") ∧
    leapInMinute.wholeSeconds ≠ afterLeapInMinute.wholeSeconds := by
  decide +kernel

end SchemaPlan
