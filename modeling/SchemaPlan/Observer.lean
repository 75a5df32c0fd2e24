import SchemaPlan.FileTree
import SchemaPlan.Snapshot
import SchemaPlan.Table.Json
import SchemaPlan.Topic.Json

/-!
# Observers

An `Observer` describes the tables and topics that exist, by absolute path. `Store.observer`
describes what a store holds, and `Snapshot.observer` what the snapshot files in a directory
say. Files are read in a monad, so that the same observer serves a file system and a `FileTree`.
-/

namespace SchemaPlan

/-- Describes objects by absolute path: an object, nothing if there is no such object, or an
error if this cannot be told. -/
structure Observer (m : Type → Type) where
  table : String → m (Except Error (Option Table))
  topic : String → m (Except Error (Option Topic))

/-! ## Stores -/

/-- Tables and topics by absolute path, and paths that cannot be described, each with the reason
for it. -/
structure Store where
  tables : List (String × Table) := []
  topics : List (String × Topic) := []
  failures : List (String × String) := []
  deriving DecidableEq

/-- The entries with `v` as the one entry of `key`. -/
def putEntry {α : Type} (key : String) (v : α) (entries : List (String × α)) :
    List (String × α) :=
  (key, v) :: entries.filter fun e => e.1 ≠ key

/-- The entries without those of `key`. -/
def removeEntries {α : Type} (key : String) (entries : List (String × α)) : List (String × α) :=
  entries.filter fun e => e.1 ≠ key

namespace Store

/-- The store with a table at `path`. -/
def putTable (store : Store) (path : String) (table : Table) : Store :=
  { store with tables := putEntry path table store.tables }

/-- The store with a topic at `path`. -/
def putTopic (store : Store) (path : String) (topic : Topic) : Store :=
  { store with topics := putEntry path topic store.topics }

/-- The store in which `path` cannot be described, for the reason `text`. -/
def putFailure (store : Store) (path text : String) : Store :=
  { store with failures := putEntry path text store.failures }

/-- The store without anything at `path`. -/
def remove (store : Store) (path : String) : Store :=
  ⟨removeEntries path store.tables, removeEntries path store.topics,
    removeEntries path store.failures⟩

/-- The entry of a path, unless the path cannot be described. -/
def describe {α : Type} (store : Store) (entries : List (String × α)) (path : String) :
    Except Error (Option α) :=
  match store.failures.lookup path with
  | some text => .error (.undescribed path (.reported text))
  | none => .ok (entries.lookup path)

/-- Describes what a store holds. -/
def observer (store : Store) : Observer Id where
  table := store.describe store.tables
  topic := store.describe store.topics

end Store

/-! ## Snapshots -/

namespace Snapshot

/-- The object that the content of a snapshot file describes. -/
def decode {α : Type} (form : Json.Value → Option α) (path : String) :
    Reading → Except Error (Option α)
  | .missing => .ok none
  | .unreadable => .error (.undescribed path .unreadable)
  | .content text =>
    match (Json.read? text).bind form with
    | some a => .ok (some a)
    | none => .error (.undescribed path .malformed)

/-- The object that the snapshot of `path` describes. -/
def describe {m : Type → Type} [Monad m] {α : Type} (read : String → m Reading)
    (form : Json.Value → Option α) (root path : String) : m (Except Error (Option α)) :=
  match file root path with
  | .error e => pure (.error e)
  | .ok file => decode form path <$> read file

/-- Describes what the snapshots in the directory `root` say. -/
def observer {m : Type → Type} [Monad m] (read : String → m Reading) (root : String) :
    Observer m where
  table := describe read Table.ofJson? root
  topic := describe read Topic.ofJson? root

end Snapshot

end SchemaPlan
