import SchemaPlan.Ddl.StatementReader
import SchemaPlan.Operation.Written
import SchemaPlan.Proofs.Ddl.Settings
import SchemaPlan.Proofs.Text.Split
import SchemaPlan.Proofs.Timestamp.RoundTrip

/-!
# Clauses of statements read back

Each reader of a clause that alters a table or is about a topic undoes the writing of the clause, up
to what the clause does not say. The settings of a clause are listed by key as they stand in it
(`changefeedValues`, `topicValues`, `consumerValues`), and each is found under its key.
-/

namespace SchemaPlan.Ddl

/-! ## Values -/

/-- A codec is known by its keyword. -/
@[simp] theorem ofKeyword?_keyword (codec : Codec) :
    Codec.ofKeyword? codec.keyword = some codec := by
  cases codec <;> decide

/-- The value of a setting that lists codecs. -/
def codecsText (codecs : List Codec) : Draft :=
  Draft.text (",".intercalate (codecs.map Codec.keyword))

theorem readCodecs?_codecsText {codecs : List Codec} (h : codecs ≠ []) :
    readCodecs? (pieces (codecsText codecs)) = some codecs := by
  have hkeyword : ∀ codec : Codec, ',' ∉ codec.keyword.toList := by
    intro codec
    cases codec <;> decide
  have hsplit : Text.splitOn ',' (",".intercalate (codecs.map Codec.keyword)).toList =
      codecs.map fun codec => codec.keyword.toList := by
    rw [String.toList_intercalate, List.map_map]
    exact Text.splitOn_intercalate (by simpa using h)
      (List.forall_mem_map.2 fun codec _ => hkeyword codec)
  have hread : (codecs.map fun codec => codec.keyword.toList).mapM
      (fun word => Codec.ofKeyword? (.ofList word)) = some (codecs.map id) :=
    mapM_map_eq_some fun codec _ => by rw [String.ofList_toList, ofKeyword?_keyword, id]
  rw [readCodecs?, codecsText, quoted?_text]
  simp only [Option.bind_eq_bind, Option.bind_some, hsplit, hread, List.map_id]

/-- The text in a call is read back. -/
theorem readCall?_call (word content : String) :
    readCall? word (pieces (plain word ++ Draft.text content ++ plain ")")) = some content := by
  have hdraft : pieces (plain word ++ Draft.text content ++ plain ")") =
      pieces (plain word) ++ (.region .text content.toList :: [.outside ')']) := by
    simp
  rw [hdraft, readCall?, afterWord?_append]
  simp only [Option.bind_eq_bind, Option.bind_some, takeQuoted?_region, if_true,
    String.ofList_toList]

theorem readInterval?_interval (period : String) :
    readInterval? (pieces (Draft.interval period)) = some period :=
  readCall?_call "Interval(" period

/-- The value of a setting that is an instant. -/
def instant (t : Timestamp) : Draft :=
  plain "Datetime(" ++ Draft.text t.writeSeconds ++ plain ")"

/-- An instant is read as it is said. -/
theorem readInstant?_instant (t : Timestamp) :
    readInstant? (pieces (instant t)) = some t.written := by
  rw [readInstant?, instant, readCall?_call, Option.bind_some, Timestamp.read?_writeSeconds,
    Timestamp.written]

theorem readCase?_mode (mode : ChangefeedMode) :
    readCase? ChangefeedMode.cases (pieces (Draft.text mode.name)) = some mode := by
  rw [readCase?, quoted?_text]
  cases mode <;> rfl

theorem readCase?_format (format : ChangefeedFormat) :
    readCase? ChangefeedFormat.cases (pieces (Draft.text format.name)) = some format := by
  rw [readCase?, quoted?_text]
  cases format <;> rfl

/-! ## Entries -/

/-- The settings in round brackets are read entry by entry. -/
theorem readEntries?_bracketed {ds : List Draft} {values : List (String × List Piece)}
    (hne : ds ≠ []) (hlist : ∀ d ∈ ds, Listable d)
    (hread : (ds.map pieces).mapM readSetting? = some values) :
    readEntries? (pieces (bracketed ds)) = some values := by
  rw [readEntries?, grouped?_bracketed hne hlist]
  exact hread

/-! ## Changefeeds -/

/-- The setting of something that is switched on. -/
def switchValue (key : String) (enabled : Bool) : List (String × List Piece) :=
  optionalValue key (if enabled then some () else none) fun _ => plain "TRUE"

theorem switch_eq (key : String) (enabled : Bool) : (switch key enabled : List Draft) =
    ((if enabled then some () else none).map fun _ => setting key (plain "TRUE")).toList := by
  cases enabled <;> rfl

/-- What the settings of a changefeed are set to. -/
def changefeedValues (f : Changefeed) : List (String × List Piece) :=
  optionalValue "MODE" (some f.mode) (fun mode => Draft.text mode.name)
    ++ optionalValue "FORMAT" (some f.format) (fun format => Draft.text format.name)
    ++ switchValue "VIRTUAL_TIMESTAMPS" f.virtualTimestamps
    ++ optionalValue "RETENTION_PERIOD" f.retention Draft.interval
    ++ switchValue "INITIAL_SCAN" f.initialScan

/-- The settings of a changefeed, each of them there or absent. -/
theorem changefeed_eq (f : Changefeed) : Draft.changefeed f =
    ((some f.mode).map fun mode => setting "MODE" (Draft.text mode.name)).toList
      ++ ((some f.format).map fun format => setting "FORMAT" (Draft.text format.name)).toList
      ++ ((if f.virtualTimestamps then some () else none).map fun _ =>
        setting "VIRTUAL_TIMESTAMPS" (plain "TRUE")).toList
      ++ (f.retention.map fun period =>
        setting "RETENTION_PERIOD" (Draft.interval period)).toList
      ++ ((if f.initialScan then some () else none).map fun _ =>
        setting "INITIAL_SCAN" (plain "TRUE")).toList := by
  simp only [Draft.changefeed, switch_eq, Option.toList_map]
  rfl

theorem listable_interval (period : String) : Listable (Draft.interval period) :=
  ⟨rfl, rfl, rfl⟩

theorem listable_changefeed (f : Changefeed) : ∀ d ∈ Draft.changefeed f, Listable d := by
  intro d hd
  simp only [changefeed_eq, List.mem_append] at hd
  rcases hd with (((hd | hd) | hd) | hd) | hd
  · exact listable_optional hd ⟨rfl, rfl, rfl⟩ fun mode => listable_text mode.name
  · exact listable_optional hd ⟨rfl, rfl, rfl⟩ fun format => listable_text format.name
  · exact listable_optional hd ⟨rfl, rfl, rfl⟩ fun _ => ⟨rfl, rfl, rfl⟩
  · exact listable_optional hd ⟨rfl, rfl, rfl⟩ listable_interval
  · exact listable_optional hd ⟨rfl, rfl, rfl⟩ fun _ => ⟨rfl, rfl, rfl⟩

theorem mapM_readSetting?_changefeed (f : Changefeed) :
    ((Draft.changefeed f).map pieces).mapM readSetting? = some (changefeedValues f) := by
  simp only [changefeed_eq, List.map_append, changefeedValues, switchValue]
  exact mapM_append_eq_some (mapM_append_eq_some (mapM_append_eq_some (mapM_append_eq_some
    (mapM_readSetting?_optional (by decide) _ _) (mapM_readSetting?_optional (by decide) _ _))
    (mapM_readSetting?_optional (by decide) _ _)) (mapM_readSetting?_optional (by decide) _ _))
    (mapM_readSetting?_optional (by decide) _ _)

theorem readEntries?_changefeed (f : Changefeed) :
    readEntries? (pieces (bracketed (Draft.changefeed f))) = some (changefeedValues f) :=
  readEntries?_bracketed (List.cons_ne_nil _ _) (listable_changefeed f)
    (mapM_readSetting?_changefeed f)

/-- A switch of a changefeed is read as on exactly if it is on. -/
theorem isSwitchedOn_virtualTimestamps (f : Changefeed) :
    isSwitchedOn "VIRTUAL_TIMESTAMPS" (changefeedValues f) = f.virtualTimestamps := by
  simp (disch := decide) only [isSwitchedOn, changefeedValues, switchValue, setting?_append,
    setting?_optional_map fun _ => plainText?_plain "TRUE", setting?_optional_ne, Option.or_none,
    Option.none_or]
  cases f.virtualTimestamps <;> rfl

theorem isSwitchedOn_initialScan (f : Changefeed) :
    isSwitchedOn "INITIAL_SCAN" (changefeedValues f) = f.initialScan := by
  simp (disch := decide) only [isSwitchedOn, changefeedValues, switchValue, setting?_append,
    setting?_optional_map fun _ => plainText?_plain "TRUE", setting?_optional_ne, Option.none_or]
  cases f.initialScan <;> rfl

/-- A changefeed is read back from its definition. -/
theorem readChangefeed?_changefeed (f : Changefeed) :
    readChangefeed? (pieces
      (Draft.name f.name ++ plain " WITH " ++ bracketed (Draft.changefeed f))) = some f := by
  have hdraft : pieces (Draft.name f.name ++ plain " WITH " ++ bracketed (Draft.changefeed f)) =
      .region .name f.name.toList ::
        (pieces (plain " WITH ") ++ pieces (bracketed (Draft.changefeed f))) := by
    simp
  have hmode : setting? "MODE" (readCase? ChangefeedMode.cases) (changefeedValues f) =
      some f.mode := by
    simp (disch := decide) only [changefeedValues, switchValue, setting?_append,
      setting?_optional_self readCase?_mode, setting?_optional_ne, Option.or_none]
  have hformat : setting? "FORMAT" (readCase? ChangefeedFormat.cases) (changefeedValues f) =
      some f.format := by
    simp (disch := decide) only [changefeedValues, switchValue, setting?_append,
      setting?_optional_self readCase?_format, setting?_optional_ne, Option.or_none,
      Option.none_or]
  have hretention : setting? "RETENTION_PERIOD" readInterval? (changefeedValues f) =
      f.retention := by
    simp (disch := decide) only [changefeedValues, switchValue, setting?_append,
      setting?_optional_self readInterval?_interval, setting?_optional_ne, Option.or_none,
      Option.none_or]
  rw [hdraft, readChangefeed?, takeQuoted?_region]
  simp only [Option.bind_eq_bind, Option.bind_some, afterWord?_append, readEntries?_changefeed,
    hmode, hformat, hretention, isSwitchedOn_virtualTimestamps, isSwitchedOn_initialScan,
    Option.pure_def, String.ofList_toList]

/-! ## Settings of tables -/

/-- The table of which only settings are told. -/
def settingsOnly (s : TableSettings) : Table where
  path := ""
  ttl := s.ttl
  partitioning := s.partitioning
  replication := s.replication

/-- A table with settings alone has their entries and no others. -/
theorem withEntries_settingsOnly (s : TableSettings) :
    Draft.withEntries (settingsOnly s) = Draft.settings [] s :=
  List.append_nil _

/-- No split point can be written without a key. -/
theorem eq_nil_of_splitPointsEntries {points : List (List String)} {ps : List Phrase}
    (h : splitPointsEntries [] points = .ok ps) : points = [] := by
  cases points with
  | nil => rfl
  | cons point points =>
    simp only [splitPointsEntries, List.isEmpty_cons, Bool.false_eq_true, if_false, splitPoints,
      bind_eq_ok_iff] at h
    obtain ⟨_, ⟨qs, hqs, -⟩, -⟩ := h
    obtain ⟨q, -, hq⟩ := exists_mem_of_mapM hqs List.mem_cons_self
    cases point with
    | nil => cases hq
    | cons value point => cases hq

/-- A partitioning without split points is created as it is. -/
theorem created_of_splitPoints_eq_nil {p : Partitioning} (h : p.splitPoints = [])
    (key : List Column) : p.created key = p := by
  cases p
  cases h
  rfl

/-- What can be written of settings, read among the settings of a table. -/
theorem readTableSettings_settings {s : TableSettings} {ps : List Phrase}
    (h : settingsEntries [] s = .ok ps) :
    readTableSettings (settingValues (settingsOnly s)) = s.written := by
  simp only [settingsEntries, partitioningEntries, bind_eq_ok_iff] at h
  obtain ⟨-, -, -, ⟨points, hpoints, -⟩, -⟩ := h
  have hnil := eq_nil_of_splitPointsEntries hpoints
  have hpartitioning : readPartitioning (settingValues (settingsOnly s)) =
      s.partitioning.getD {} :=
    (readPartitioning_settingValues (t := settingsOnly s) hpoints).trans
      (created_of_splitPoints_eq_nil hnil [])
  rw [readTableSettings, hpartitioning, readExpiry?_settingValues, readReplicas_settingValues,
    TableSettings.written, TableSettings.mk.injEq]
  refine ⟨rfl, ?_, ?_⟩
  · cases s.partitioning with
    | none => rfl
    | some p =>
      rw [Option.getD_some, Option.filter_some]
      cases p.isEmpty <;> rfl
  · exact congrArg _ Option.or_none

theorem readEntries?_settings {s : TableSettings} (hne : Draft.settings [] s ≠ []) :
    readEntries? (pieces (bracketed (Draft.settings [] s))) =
      some (settingValues (settingsOnly s)) := by
  refine readEntries?_bracketed hne (listable_settings [] s) ?_
  rw [← withEntries_settingsOnly]
  exact mapM_readSetting? (List.forall_mem_nil _)

/-! ## Topics and consumers -/

/-- What the codecs of a topic or consumer are set to. -/
def codecsValues (codecs : List Codec) : List (String × List Piece) :=
  optionalValue "supported_codecs" (if codecs.isEmpty then none else some codecs) codecsText

theorem codecs_eq (codecs : List Codec) : Draft.codecs codecs =
    ((if codecs.isEmpty then none else some codecs).map fun cs =>
      setting "supported_codecs" (codecsText cs)).toList := by
  cases codecs <;> rfl

theorem setting?_codecsValues (codecs : List Codec) :
    setting? "supported_codecs" readCodecs? (codecsValues codecs) =
      if codecs.isEmpty then none else some codecs := by
  cases codecs with
  | nil => rfl
  | cons codec codecs =>
    have hread := readCodecs?_codecsText (List.cons_ne_nil codec codecs)
    rw [codecsValues, List.isEmpty_cons, if_neg Bool.false_ne_true, optionalValue, Option.map_some,
      Option.toList_some, setting?, List.findSome?_singleton, if_pos rfl, hread]

theorem setting?_codecsValues_ne {β : Type} {key : String} {read : List Piece → Option β}
    (h : "supported_codecs" ≠ key) (codecs : List Codec) :
    setting? key read (codecsValues codecs) = none :=
  setting?_optional_ne h _ _

theorem getD_codecs (codecs : List Codec) :
    (if codecs.isEmpty then none else some codecs).getD [] = codecs := by
  cases codecs <;> rfl

/-- What the settings of a topic are set to. -/
def topicValues (s : TopicSettings) : List (String × List Piece) :=
  optionalValue "min_active_partitions" s.partitions number
    ++ optionalValue "retention_period" s.retention Draft.interval ++ codecsValues s.codecs

theorem topic_eq (s : TopicSettings) : Draft.topic s =
    (s.partitions.map fun n => setting "min_active_partitions" (number n)).toList
      ++ (s.retention.map fun period =>
        setting "retention_period" (Draft.interval period)).toList
      ++ ((if s.codecs.isEmpty then none else some s.codecs).map fun cs =>
        setting "supported_codecs" (codecsText cs)).toList := by
  simp only [Draft.topic, partitionsEntries, codecs_eq, Option.toList_map]

theorem listable_topic (s : TopicSettings) : ∀ d ∈ Draft.topic s, Listable d := by
  intro d hd
  simp only [topic_eq, List.mem_append] at hd
  rcases hd with (hd | hd) | hd
  · exact listable_optional hd ⟨rfl, rfl, rfl⟩ listable_number
  · exact listable_optional hd ⟨rfl, rfl, rfl⟩ listable_interval
  · exact listable_optional hd ⟨rfl, rfl, rfl⟩ fun codecs => listable_text _

theorem mapM_readSetting?_topic (s : TopicSettings) :
    ((Draft.topic s).map pieces).mapM readSetting? = some (topicValues s) := by
  simp only [topic_eq, List.map_append, topicValues, codecsValues]
  exact mapM_append_eq_some (mapM_append_eq_some (mapM_readSetting?_optional (by decide) _ _)
    (mapM_readSetting?_optional (by decide) _ _)) (mapM_readSetting?_optional (by decide) _ _)

/-- The settings of a topic are read back. -/
theorem readTopicSettings_topicValues (s : TopicSettings) :
    readTopicSettings (topicValues s) = s := by
  simp (disch := decide) only [readTopicSettings, readCodecs, topicValues, setting?_append,
    setting?_optional_self readNumber?_number, setting?_optional_self readInterval?_interval,
    setting?_optional_ne, setting?_codecsValues, setting?_codecsValues_ne, Option.or_none,
    Option.none_or, getD_codecs]

/-- What the settings of a consumer are set to. -/
def consumerValues (codecs : List Codec) (position : Option Timestamp) :
    List (String × List Piece) :=
  codecsValues codecs ++ optionalValue "read_from" position instant

/-- The entries of the settings of a consumer, of which some may be left out. -/
def consumerSettings (codecs : List Codec) (position : Option Timestamp) : List Draft :=
  Draft.codecs codecs ++ (position.map Draft.readFrom).toList

theorem listable_instant (t : Timestamp) : Listable (instant t) :=
  ⟨rfl, rfl, rfl⟩

theorem listable_consumerSettings (codecs : List Codec) (position : Option Timestamp) :
    ∀ d ∈ consumerSettings codecs position, Listable d := by
  intro d hd
  simp only [consumerSettings, codecs_eq, List.mem_append] at hd
  rcases hd with hd | hd
  · exact listable_optional hd ⟨rfl, rfl, rfl⟩ fun codecs => listable_text _
  · exact listable_optional (f := instant) hd ⟨rfl, rfl, rfl⟩ listable_instant

theorem readEntries?_consumerSettings {codecs : List Codec} {position : Option Timestamp}
    (hne : consumerSettings codecs position ≠ []) :
    readEntries? (pieces (bracketed (consumerSettings codecs position))) =
      some (consumerValues codecs position) := by
  refine readEntries?_bracketed hne (listable_consumerSettings codecs position) ?_
  rw [consumerSettings, codecs_eq, List.map_append, consumerValues]
  exact mapM_append_eq_some (mapM_readSetting?_optional (by decide) _ _)
    (mapM_readSetting?_optional (by decide) position instant)

theorem readCodecs_consumerValues (codecs : List Codec) (position : Option Timestamp) :
    readCodecs (consumerValues codecs position) = codecs := by
  simp (disch := decide) only [readCodecs, consumerValues, setting?_append, setting?_codecsValues,
    setting?_optional_ne, Option.or_none, getD_codecs]

/-- The read position of a consumer is read as it is said. -/
theorem readInstant?_consumerValues (codecs : List Codec) (position : Option Timestamp) :
    setting? "read_from" readInstant? (consumerValues codecs position) =
      position.map Timestamp.written := by
  simp (disch := decide) only [consumerValues, setting?_append, setting?_codecsValues_ne,
    setting?_optional_map readInstant?_instant, Option.none_or]

/-- A consumer is read from its definition as the consumer that it says. -/
theorem readConsumer?_consumer (c : Consumer) :
    readConsumer? (pieces (Draft.consumer c)) = some c.written := by
  have hdraft : pieces (Draft.consumer c) = pieces (plain "CONSUMER ")
      ++ (.region .name c.name.toList :: (pieces (plain " WITH ")
        ++ pieces (bracketed (consumerSettings c.codecs (some c.readFrom))))) := by
    simp [Draft.consumer, consumerSettings]
  have hne : consumerSettings c.codecs (some c.readFrom) ≠ [] := by
    simp [consumerSettings]
  rw [hdraft, readConsumer?, afterWord?_append]
  simp only [Option.bind_eq_bind, Option.bind_some, takeQuoted?_region, afterWord?_append,
    readEntries?_consumerSettings hne, readCodecs_consumerValues, readInstant?_consumerValues,
    Option.map_some, Option.pure_def, String.ofList_toList]
  rfl

theorem listable_consumer (c : Consumer) : Listable (Draft.consumer c) := by
  have hsettings := listable_bracketed fun d hd =>
    (listable_consumerSettings c.codecs (some c.readFrom) d hd).isEntry
  refine ⟨?_, ?_, ?_⟩
  · rw [Draft.consumer, pieces_append, pieces_append, pieces_append]
    exact ((IsEntry.append (by decide) (isEntry_name c.name)).append (by decide)).append
      hsettings.isEntry
  · exact startsSolid_append (by decide) _
  · rw [Draft.consumer, pieces_append]
    exact endsSolid_append _ hsettings.ends

/-- A change of the read position is read as the one that it says. -/
theorem readConsumerChange?_setReadFrom (name : String) (position : Timestamp) :
    readConsumerChange? (pieces (Draft.name name ++ plain " SET "
      ++ bracketed [Draft.readFrom position])) =
      some (.setReadFrom name position.written) := by
  have hdraft : pieces (Draft.name name ++ plain " SET " ++ bracketed [Draft.readFrom position]) =
      .region .name name.toList :: (pieces (plain " SET ")
        ++ pieces (bracketed (consumerSettings [] (some position)))) := by
    simp [consumerSettings, Draft.codecs]
  have hne : consumerSettings [] (some position) ≠ [] := by
    simp [consumerSettings]
  rw [hdraft, readConsumerChange?, takeQuoted?_region]
  simp only [Option.bind_eq_bind, Option.bind_some, afterWord?_append,
    readEntries?_consumerSettings hne, readInstant?_consumerValues, Option.map_some,
    Option.pure_def, String.ofList_toList]

theorem readConsumerChange?_setCodecs (name : String) {codecs : List Codec} (hne : codecs ≠ []) :
    readConsumerChange? (pieces (Draft.name name ++ plain " SET "
      ++ bracketed (Draft.codecs codecs))) = some (.setCodecs name codecs) := by
  have hdraft : pieces (Draft.name name ++ plain " SET " ++ bracketed (Draft.codecs codecs)) =
      .region .name name.toList :: (pieces (plain " SET ")
        ++ pieces (bracketed (consumerSettings codecs none))) := by
    simp [consumerSettings]
  have hsettings : consumerSettings codecs none ≠ [] := by
    simpa [consumerSettings, Draft.codecs] using hne
  rw [hdraft, readConsumerChange?, takeQuoted?_region]
  simp only [Option.bind_eq_bind, Option.bind_some, afterWord?_append,
    readEntries?_consumerSettings hsettings, readInstant?_consumerValues, Option.map_none,
    readCodecs_consumerValues, Option.pure_def, String.ofList_toList]

end SchemaPlan.Ddl
