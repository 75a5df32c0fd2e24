import SchemaPlan.FileTree

/-!
# Paths under a directory

`Snapshot.joined` is what a file system takes a path to be that is given from a directory on: an
absolute path stands for itself, and the directory is not asked for. `Snapshot.Under` says of a path
that it goes to a directory and from there along some way that is never out of it.
-/

namespace SchemaPlan.Snapshot

/-- The path that `file` is from the directory `root` on. -/
def joined (root file : String) : String :=
  if file.toList.head? = some '/' then file
  else if root = "" ∨ root.toList.getLast? = some '/' then root ++ file
  else root ++ "/" ++ file

/-- A path and what is left of it without the slashes at its two ends. -/
structure Stripped (path relative : String) : Prop where
  padded : ∃ lead trail, path.toList = lead ++ relative.toList ++ trail ∧
    (∀ c ∈ lead, c = '/') ∧ ∀ c ∈ trail, c = '/'
  head : relative.toList.head? ≠ some '/'
  last : relative.toList.getLast? ≠ some '/'

/-- The path `name` leads to the directory `root` and on along `way`. From whatever directory the
way is walked, no part of it ends outside. -/
structure Under (root way name : String) : Prop where
  front : root.toList <+: name.toList
  segments : ∃ before, FileTree.segments name = before ++ FileTree.segments way ∧
    ∀ directory,
      FileTree.endOf directory before = FileTree.endOf directory (FileTree.segments root)
  inside : ∀ directory part, part <+: FileTree.segments way →
    directory <+: FileTree.endOf directory part

end SchemaPlan.Snapshot
