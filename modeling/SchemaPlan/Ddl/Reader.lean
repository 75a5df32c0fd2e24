import SchemaPlan.Ddl.Entry
import SchemaPlan.Ddl.Table

/-!
# Reading the creation of a table

`Table.ofStatement?` reads a statement that creates a table as the description of the table that it
creates. It is led by the words of the statement alone: the body and the settings are split into
entries, and each reader takes the words and regions of its clause from the front of an entry.
Settings are looked up by their keys; those that no key of a table stands for are its attributes.
-/

namespace SchemaPlan.Ddl

/-! ## Words, contents and lists -/

/-- What stands before a word at the end of pieces. -/
def beforeWord? (word : String) (ps : List Piece) : Option (List Piece) :=
  (word.toList.map .outside).isSuffixOf? ps

/-- The content of a region that is all there is. -/
def quoted? (quote : Quote) (ps : List Piece) : Option String :=
  match takeQuoted? quote ps with
  | some (content, []) => some content
  | _ => none

/-- The character of a piece outside all regions. -/
def Piece.char? : Piece → Option Char
  | outside c => some c
  | region _ _ => none

/-- The text of pieces without regions. -/
def plainText? (ps : List Piece) : Option String :=
  (ps.mapM Piece.char?).map String.ofList

/-- The entries of a list in round brackets that is all there is. -/
def grouped? (ps : List Piece) : Option (List (List Piece)) :=
  match group? ps with
  | some (entries, []) => some entries
  | _ => none

/-- The names in a list in round brackets that is all there is. -/
def readNames? (ps : List Piece) : Option (List String) := do
  (← grouped? ps).mapM (quoted? .name)

/-! ## Entries of the body -/

/-- The type of a column and the family after it, if there is one. -/
def readType? (ps : List Piece) : Option (String × Option String) :=
  match ps.getLast? with
  | some (.region .name family) => do
    return (← plainText? (← beforeWord? " FAMILY " ps.dropLast), some (.ofList family))
  | _ => (plainText? ps).map fun type => (type, none)

/-- The definition of a column. -/
def readColumn? (ps : List Piece) : Option Column := do
  let (name, ps) ← takeQuoted? .name ps
  let ps ← afterWord? " " ps
  let notNull := (beforeWord? " NOT NULL" ps).isSome
  let (type, family) ← readType? ((beforeWord? " NOT NULL" ps).getD ps)
  return ⟨name, type, family, notNull⟩

/-- The kind of an index at the front of pieces, and what follows it. -/
def takeKind? (ps : List Piece) : Option (IndexKind × List Piece) :=
  [IndexKind.sync, .async].findSome? fun kind => (afterWord? (kindKeyword kind) ps).map (kind, ·)

/-- The columns that an index covers; none if there is nothing to read. -/
def readCover? (ps : List Piece) : Option (List String) :=
  if ps = [] then some []
  else do readNames? (← afterWord? " COVER " ps)

/-- The definition of an index. -/
def readIndex? (ps : List Piece) : Option Index := do
  let (name, ps) ← takeQuoted? .name (← afterWord? "INDEX " ps)
  let (kind, ps) ← takeKind? (← afterWord? " GLOBAL " ps)
  let (columns, ps) ← group? (← afterWord? " ON " ps)
  return ⟨name, kind, ← columns.mapM (quoted? .name), ← readCover? ps⟩

/-- The primary key. -/
def readKey? (ps : List Piece) : Option (List String) := do
  readNames? (← afterWord? "PRIMARY KEY " ps)

/-- The definition of a column family. -/
def readFamily? (ps : List Piece) : Option Family := do
  let (name, ps) ← takeQuoted? .name (← afterWord? "FAMILY " ps)
  let (media, ps) ← takeQuoted? .text (← afterWord? "(DATA = " ps)
  let (compression, ps) ← takeQuoted? .text (← afterWord? ", COMPRESSION = " ps)
  if ps = [.outside ')'] then some ⟨name, media, compression⟩ else none

/-- What an entry of the body of a creation defines. -/
inductive Part where
  | column (c : Column)
  | index (i : Index)
  | primaryKey (columns : List String)
  | family (f : Family)
  deriving DecidableEq

/-- What an entry of the body of a creation defines, if anything. -/
def readPart? (ps : List Piece) : Option Part :=
  (readColumn? ps).map .column <|> (readIndex? ps).map .index <|> (readKey? ps).map .primaryKey
    <|> (readFamily? ps).map .family

namespace Part

def column? : Part → Option Column
  | column c => some c
  | _ => none

def index? : Part → Option Index
  | index i => some i
  | _ => none

def primaryKey? : Part → Option (List String)
  | primaryKey columns => some columns
  | _ => none

def family? : Part → Option Family
  | family f => some f
  | _ => none

end Part

/-! ## Settings -/

/-- The key of a setting and what it is set to. -/
def readSetting? (ps : List Piece) : Option (String × List Piece) := do
  let key ← plainText? (ps.takeWhile (· ≠ .outside ' '))
  return (key, ← afterWord? " = " (ps.dropWhile (· ≠ .outside ' ')))

/-- The settings of a creation, from what follows its body. -/
def readSettings? (ps : List Piece) : Option (List (String × List Piece)) :=
  if ps = [.outside '\n'] then some []
  else do
    let (entries, rest) ← group? (← afterWord? "\nWITH " ps)
    if rest = [.outside '\n'] then entries.mapM readSetting? else none

/-- What the first setting of a key that can be read is set to. -/
def setting? {α : Type} (key : String) (read : List Piece → Option α)
    (settings : List (String × List Piece)) : Option α :=
  settings.findSome? fun e => if e.1 = key then read e.2 else none

/-- When rows expire. -/
def readExpiry? (ps : List Piece) : Option Ttl := do
  let (interval, ps) ← takeQuoted? .text (← afterWord? "Interval(" ps)
  return ⟨← quoted? .name (← afterWord? ") ON " ps), interval⟩

/-- Whether something is switched on. -/
def readToggle? (ps : List Piece) : Option Bool :=
  match plainText? ps with
  | some word =>
    if word = "ENABLED" then some true
    else if word = "DISABLED" then some false
    else none
  | none => none

/-- A number of sixty-four bits. -/
def readNumber? (ps : List Piece) : Option UInt64 := do
  let n ← Decimal.value? (← plainText? ps).toList
  if h : n < UInt64.size then some (.ofNatLT n h) else none

/-- A value of a split point, as it is written. -/
def readLiteral? (ps : List Piece) : Option String :=
  quoted? .text ps <|> plainText? ps

/-- The split points of a table. -/
def readSplitPoints? (ps : List Piece) : Option (List (List String)) := do
  (← grouped? ps).mapM fun point => do (← grouped? point).mapM readLiteral?

/-- How a table is split into partitions. -/
def readPartitioning (settings : List (String × List Piece)) : Partitioning where
  uniformPartitions := setting? "UNIFORM_PARTITIONS" readNumber? settings
  minPartitions := setting? "AUTO_PARTITIONING_MIN_PARTITIONS_COUNT" readNumber? settings
  maxPartitions := setting? "AUTO_PARTITIONING_MAX_PARTITIONS_COUNT" readNumber? settings
  byLoad := setting? "AUTO_PARTITIONING_BY_LOAD" readToggle? settings
  bySize := setting? "AUTO_PARTITIONING_BY_SIZE_ENABLED" readToggle? settings
  sizeThreshold := setting? "AUTO_PARTITIONING_BY_SIZE" readNumber? settings
  splitPoints := (setting? "PARTITION_AT_KEYS" readSplitPoints? settings).getD []

/-- The key of the setting that holds the read replicas. -/
def replicasKey : String := "READ_REPLICAS_SETTINGS"

/-- The attribute that a setting is, if it is one: a text under a key of its own. -/
def attribute? (e : String × List Piece) : Option (String × String) :=
  if e.1 = replicasKey then none else (quoted? .text e.2).map (e.1, ·)

/-- The attributes among settings. -/
def readAttributes (settings : List (String × List Piece)) : Attributes :=
  .ofList (settings.filterMap attribute?)

end SchemaPlan.Ddl

namespace SchemaPlan

open Ddl

/-- The table that a statement creates. -/
def Table.ofStatement? (s : String) : Option Table := do
  let (path, ps) ← takeQuoted? .name (← afterWord? "CREATE TABLE " (← regions? s))
  let (entries, ps) ← group? ps
  let parts ← entries.mapM readPart?
  let settings ← readSettings? ps
  let partitioning := readPartitioning settings
  return {
    path
    columns := parts.filterMap Part.column?
    primaryKey := (parts.filterMap Part.primaryKey?).flatten
    indexes := parts.filterMap Part.index?
    families := parts.filterMap Part.family?
    ttl := setting? "TTL" readExpiry? settings
    partitioning := if partitioning.isEmpty then none else some partitioning
    replication := (setting? replicasKey (quoted? .text) settings).map fun s => ⟨some s⟩
    attributes := readAttributes settings }

end SchemaPlan
