import SchemaPlan.Text.Split

/-!
# File trees

A `FileTree` holds text files in directories below one directory, the root. `FileTree.find` looks
a path up from the root as a file system does: empty segments and `.` stay, `..` goes up, and
a segment must name a directory if others follow it. `FileTree.write` makes every directory on
its way, so a path that goes into a directory and up again leaves the directory behind. What is
above the root is not known, so nothing is found there and nothing is put there.
-/

namespace SchemaPlan

/-- What comes of reading a file. -/
inductive Reading where
  /-- There is no such file. -/
  | missing
  /-- There is something, but no text can be read from it. -/
  | unreadable
  | content (text : String)
  deriving Repr, DecidableEq

/-- Files and directories, each given by the names on the way from the root to it. -/
structure FileTree where
  directories : List (List String) := []
  files : List (List String × String) := []
  deriving Repr, DecidableEq

namespace FileTree

/-- The bytes that the name of a file or directory may have. -/
def maxNameBytes : Nat := 255

/-- The bytes that a path may have. -/
def maxPathBytes : Nat := 4095

/-- The segments of a path. -/
def segments (path : String) : List String :=
  (Text.splitOn '/' path.toList).map String.ofList

/-- Whether a segment stays in the directory it is looked up in. -/
def stays (segment : String) : Bool :=
  segment = "" || segment = "."

/-- Whether a segment goes up. -/
def goesUp (segment : String) : Bool :=
  segment = ".."

/-! ## Looking up -/

/-- What a path leads to. -/
inductive Entry where
  /-- There is nothing. -/
  | missing
  /-- There is a directory, or the path goes on behind a file, or a name is too long. -/
  | obstacle
  | file (names : List String) (text : String)
  deriving Repr, DecidableEq

/-- What the remaining segments of a path lead to, from a directory on. -/
def findFrom (tree : FileTree) : List String → List String → Entry
  | _, [] => .obstacle
  | directory, segment :: rest =>
    if stays segment then tree.findFrom directory rest
    else if goesUp segment then
      if directory.isEmpty then .missing else tree.findFrom directory.dropLast rest
    else if maxNameBytes < segment.utf8ByteSize then .obstacle
    else
      let here := directory ++ [segment]
      match tree.files.lookup here with
      | some text => if rest.isEmpty then .file here text else .obstacle
      | none => if here ∈ tree.directories then tree.findFrom here rest else .missing

/-- What a path leads to. -/
def find (tree : FileTree) (path : String) : Entry :=
  if path.isEmpty then .missing
  else if maxPathBytes < path.utf8ByteSize || path.toList.contains '\x00' then .obstacle
  else if path.toList.head? = some '/' then .missing
  else tree.findFrom [] (segments path)

/-- What comes of reading what a path leads to. -/
def Entry.reading : Entry → Reading
  | missing => .missing
  | obstacle => .unreadable
  | file _ text => .content text

/-- What comes of reading the file at `path`. -/
def read (tree : FileTree) (path : String) : Reading :=
  (tree.find path).reading

/-! ## Changing -/

/-- The directories that segments go into from a directory on, in order, if none of them goes
above the root. -/
def entered? (directory : List String) : List String → Option (List (List String))
  | [] => some []
  | segment :: rest =>
    if stays segment then entered? directory rest
    else if goesUp segment then
      if directory.isEmpty then none else entered? directory.dropLast rest
    else
      let here := directory ++ [segment]
      (entered? here rest).map (here :: ·)

/-- The directory that segments end in from a directory on. -/
def endOf (directory : List String) : List String → List String
  | [] => directory
  | segment :: rest =>
    if stays segment then endOf directory rest
    else if goesUp segment then endOf directory.dropLast rest
    else endOf (directory ++ [segment]) rest

/-- The files without the one of the given names. -/
def withoutFile (names : List String) (files : List (List String × String)) :
    List (List String × String) :=
  files.filter fun file => file.1 ≠ names

/-- The tree with a file at `path` that holds `text`, and with the directories on the way to it.
The tree stays as it is if the path goes above the root or does not end in a name. -/
def write (tree : FileTree) (path text : String) : FileTree :=
  let way := segments path
  if way.getLast?.any fun segment => stays segment || goesUp segment then tree
  else
    match entered? [] way.dropLast with
    | some directories =>
      ⟨tree.directories ++ directories,
        (endOf [] way, text) :: withoutFile (endOf [] way) tree.files⟩
    | none => tree

/-- The tree without the file at `path`, if there is one; its directories stay. -/
def remove (tree : FileTree) (path : String) : FileTree :=
  match tree.find path with
  | .file names _ => { tree with files := withoutFile names tree.files }
  | _ => tree

end FileTree

end SchemaPlan
