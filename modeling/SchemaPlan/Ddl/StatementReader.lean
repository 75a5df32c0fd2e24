import SchemaPlan.Ddl.Reader
import SchemaPlan.Operation
import SchemaPlan.Text.Split
import SchemaPlan.Timestamp.Reader

/-!
# Reading statements

`Operation.ofStatement?` reads the statement of an operation that defines no columns as the
operation. The words at the front of a statement and of its clause select the reader of what follows
them (`statementReaders`, `tableClauses`, `topicClauses`); settings are looked up by their keys.
-/

namespace SchemaPlan

/-- The codec of a keyword. -/
def Codec.ofKeyword? (keyword : String) : Option Codec :=
  all.find? fun codec => codec.keyword = keyword

namespace Ddl

/-! ## Values of settings -/

/-- The text between a word that opens a bracket and the end of the bracket, if this is all there
is. -/
def readCall? (word : String) (ps : List Piece) : Option String := do
  let (content, ps) ← takeQuoted? .text (← afterWord? word ps)
  if ps = [.outside ')'] then some content else none

/-- A period of time. -/
def readInterval? (ps : List Piece) : Option String :=
  readCall? "Interval(" ps

/-- An instant. -/
def readInstant? (ps : List Piece) : Option Timestamp :=
  (readCall? "Datetime(" ps).bind Timestamp.read?

/-- A list of codecs. -/
def readCodecs? (ps : List Piece) : Option (List Codec) := do
  (Text.splitOn ',' (← quoted? .text ps).toList).mapM fun word => Codec.ofKeyword? (.ofList word)

/-- A text that is the name of a case. -/
def readCase? {α : Type} (cases : List (String × α)) (ps : List Piece) : Option α :=
  (quoted? .text ps).bind (List.lookup · cases)

/-- Whether something is switched on among settings. -/
def isSwitchedOn (key : String) (settings : List (String × List Piece)) : Bool :=
  setting? key plainText? settings = some "TRUE"

/-! ## Clauses -/

/-- The settings in a list in round brackets that is all there is. -/
def readEntries? (ps : List Piece) : Option (List (String × List Piece)) := do
  (← grouped? ps).mapM readSetting?

/-- The settings of a table. -/
def readTableSettings (settings : List (String × List Piece)) : TableSettings :=
  let partitioning := readPartitioning settings
  { ttl := setting? "TTL" readExpiry? settings
    partitioning := if partitioning.isEmpty then none else some partitioning
    replication := (setting? replicasKey (quoted? .text) settings).map fun s => ⟨some s⟩ }

/-- A changefeed: its name and its settings. -/
def readChangefeed? (ps : List Piece) : Option Changefeed := do
  let (name, ps) ← takeQuoted? .name ps
  let settings ← readEntries? (← afterWord? " WITH " ps)
  return {
    name
    mode := ← setting? "MODE" (readCase? ChangefeedMode.cases) settings
    format := ← setting? "FORMAT" (readCase? ChangefeedFormat.cases) settings
    virtualTimestamps := isSwitchedOn "VIRTUAL_TIMESTAMPS" settings
    retention := setting? "RETENTION_PERIOD" readInterval? settings
    initialScan := isSwitchedOn "INITIAL_SCAN" settings }

/-- The codecs among the settings of a topic or consumer. -/
def readCodecs (settings : List (String × List Piece)) : List Codec :=
  (setting? "supported_codecs" readCodecs? settings).getD []

/-- The settings of a topic. -/
def readTopicSettings (settings : List (String × List Piece)) : TopicSettings where
  partitions := setting? "min_active_partitions" readNumber? settings
  retention := setting? "retention_period" readInterval? settings
  codecs := readCodecs settings

/-- The definition of a consumer. -/
def readConsumer? (ps : List Piece) : Option Consumer := do
  let (name, ps) ← takeQuoted? .name (← afterWord? "CONSUMER " ps)
  let settings ← readEntries? (← afterWord? " WITH " ps)
  return ⟨name, readCodecs settings, ← setting? "read_from" readInstant? settings⟩

/-- A change of a consumer that exists: its name and what is set. -/
def readConsumerChange? (ps : List Piece) : Option ConsumerChange := do
  let (name, ps) ← takeQuoted? .name ps
  let settings ← readEntries? (← afterWord? " SET " ps)
  match setting? "read_from" readInstant? settings with
  | some readFrom => return .setReadFrom name readFrom
  | none => return .setCodecs name (readCodecs settings)

/-- The consumers in the body of the creation of a topic, and what follows the body. -/
def takeConsumers? (ps : List Piece) : Option (List Consumer × List Piece) :=
  match group? ps with
  | some (entries, ps) => do return (← entries.mapM readConsumer?, ps)
  | none => some ([], ps)

/-- What follows the name of a topic in its creation. -/
def readTopic? (path : String) (ps : List Piece) : Option Topic := do
  let (consumers, ps) ← takeConsumers? ps
  let settings := readTopicSettings (← readSettings? ps)
  return ⟨path, settings.partitions, settings.retention, settings.codecs, consumers⟩

/-! ## Statements -/

/-- The words at the front of a statement or clause, and the reader of what follows them for the
table or topic that the statement is about. -/
structure ClauseReader where
  word : String
  read : String → List Piece → Option Operation

/-- What is read after the first of the words that pieces start with. -/
def readClause? (readers : List ClauseReader) (target : String) (ps : List Piece) :
    Option Operation :=
  readers.findSome? fun r => (afterWord? r.word ps).bind (r.read target)

/-- What can be done to a table. -/
def tableClauses : List ClauseReader :=
  [⟨" ADD CHANGEFEED ", fun table ps => (readChangefeed? ps).map (.addChangefeed table)⟩,
    ⟨" ADD ", fun table ps => (readIndex? ps).map (.addIndex table)⟩,
    ⟨" DROP INDEX ", fun table ps => (quoted? .name ps).map (.dropIndex table)⟩,
    ⟨" DROP CHANGEFEED ", fun table ps => (quoted? .name ps).map (.dropChangefeed table)⟩,
    ⟨" SET ", fun table ps =>
      (readEntries? ps).map fun settings => .setTableSettings table (readTableSettings settings)⟩,
    ⟨" RESET (TTL)", fun table ps => if ps = [] then some (.resetTtl table) else none⟩]

/-- What can be done to a topic. -/
def topicClauses : List ClauseReader :=
  [⟨" ADD ", fun topic ps => (readConsumer? ps).map fun c => .changeConsumer topic (.add c)⟩,
    ⟨" ALTER CONSUMER ", fun topic ps => (readConsumerChange? ps).map (.changeConsumer topic)⟩,
    ⟨" SET ", fun topic ps =>
      (readEntries? ps).map fun settings => .alterTopic topic (readTopicSettings settings)⟩]

/-- What a statement can do to what it names. -/
def statementReaders : List ClauseReader :=
  [⟨"ALTER TABLE ", readClause? tableClauses⟩, ⟨"ALTER TOPIC ", readClause? topicClauses⟩,
    ⟨"CREATE TOPIC ", fun topic ps => (readTopic? topic ps).map .createTopic⟩]

/-- The operation of the pieces of a statement. -/
def readStatement? (ps : List Piece) : Option Operation :=
  statementReaders.findSome? fun r => do
    let (target, ps) ← takeQuoted? .name (← afterWord? r.word ps)
    r.read target ps

end Ddl

/-- The operation of a statement that defines no columns. -/
def Operation.ofStatement? (s : String) : Option Operation :=
  (Ddl.regions? s).bind Ddl.readStatement?

end SchemaPlan
