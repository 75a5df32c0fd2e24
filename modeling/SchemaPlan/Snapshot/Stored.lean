import SchemaPlan.Planner

/-!
# Stored objects

Tables and topics, each under the absolute path of the object, can be kept in two ways: in a store,
which has a map for each kind, and as snapshots, for which the document of each object is written to
the file of its path. `Snapshot.Keeps` is what a file system does in which the snapshots are kept
and nothing else: it returns what was written.
-/

namespace SchemaPlan

/-- A table or a topic. -/
inductive Stored where
  | table (t : Table)
  | topic (t : Topic)
  deriving DecidableEq

namespace Stored

def table? : Stored → Option Table
  | table t => some t
  | topic _ => none

def topic? : Stored → Option Topic
  | table _ => none
  | topic t => some t

def toJson : Stored → Json.Value
  | table t => t.toJson
  | topic t => t.toJson

/-- The topic as which the document of the object is read. -/
def asTopic : Stored → Topic
  | table t => { path := t.path }
  | topic t => t.asRead

/-- What is written to the snapshot of the object. -/
def document (object : Stored) : String :=
  object.toJson.write

/-- The objects of one kind. -/
def ofKind {α : Type} (kind? : Stored → Option α) (objects : List (String × Stored)) :
    List (String × α) :=
  objects.filterMap fun object => (kind? object.2).map (object.1, ·)

/-- The store of the objects: a map of the tables and one of the topics. -/
def store (objects : List (String × Stored)) : Store where
  tables := ofKind table? objects
  topics := ofKind topic? objects

end Stored

namespace Snapshot

/-- The path starts with a slash, and names follow with slashes between them. -/
def IsAbsolute (path : String) : Prop :=
  ∃ names, FileTree.segments path = "" :: names ∧ names ≠ [] ∧
    ∀ name ∈ names, name ∉ ["", ".", ".."]

/-- The snapshots of the objects are what is found below the directory `root`. -/
structure Keeps (read : String → Reading) (root : String) (objects : List (String × Stored)) :
    Prop where
  read_written : ∀ path object, (path, object) ∈ objects → ∀ name, file root path = .ok name →
    read name = .content object.document
  written_of_read : ∀ path, IsAbsolute path → ∀ name text, file root path = .ok name →
    read name = .content text → ∃ object ∈ objects, file root object.1 = .ok name

end Snapshot

namespace Planner

/-- The planner with another observer. -/
def withObserver {m n : Type → Type} (planner : Planner m) (observer : Observer n) : Planner n :=
  ⟨observer, planner.codecs, planner.options⟩

end Planner

end SchemaPlan
