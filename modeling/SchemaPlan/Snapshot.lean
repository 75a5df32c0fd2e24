import SchemaPlan.Error
import SchemaPlan.Text.Blank
import SchemaPlan.Text.Split

/-!
# Snapshot files

The observed state of an object can be kept in a file. `Snapshot.file` is the path of the file
for the object with a given path: the path below the directory of snapshots, with `.json` at its
end. Paths with a `..` segment are refused, so the file is always below that directory.
-/

namespace SchemaPlan.Snapshot

/-- The segment of a path that goes up. -/
def parentSegment : List Char := "..".toList

/-- The path of `file` below the directory `root`. -/
def below (root file : List Char) : List Char :=
  if root.isEmpty || root.getLast? = some '/' then root ++ file else root ++ '/' :: file

/-- The path of the snapshot of the object at `path`, for snapshots in the directory `root`. -/
def file (root path : String) : Except Error String :=
  let relative := Text.dropEnds (· = '/') path.toList
  if (Text.splitOn '/' relative).contains parentSegment then
    .error (.rejected (.pathLeavesSnapshots path))
  else .ok (.ofList (below root.toList (relative ++ ".json".toList)))

end SchemaPlan.Snapshot
