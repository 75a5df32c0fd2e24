import SchemaPlan.Error
import SchemaPlan.Text.Split

/-!
# Addresses of objects

An `Address` says where a managed object is: the host of the endpoint, whether it is reached
over TLS, the path of the database and the path of the object inside the database. Its `handle`
packs the four into one text,

    grpcs://host:2135/?database=/region/cloud/base&path=dir/table

and `ofHandle` reads a handle back. Two older forms are read as well: one with `?path=` in place
of `&path=`, and one without a mark, whose database path ends before the fourth slash.
-/

namespace SchemaPlan

/-- Where a managed object is. -/
structure Address where
  host : String
  tls : Bool
  database : String
  path : String
  deriving Repr, DecidableEq

namespace Address

/-- The scheme of an endpoint reached over TLS. -/
def secureScheme : String := "grpcs://"

/-- The scheme of an endpoint reached in the clear. -/
def plainScheme : String := "grpc://"

/-- What stands between the host and the path of the database. -/
def databaseMark : String := "/?database="

/-- What stands between the path of the database and the path of the object. -/
def pathMark : String := "&path="

/-- What stood in front of the path of the object in older handles. -/
def oldPathMark : String := "?path="

/-- How many slashes precede the one that ends the database path of a handle without a mark. -/
def unmarkedSlashes : Nat := 3

/-- The connection text of the database. -/
def endpoint (a : Address) : String :=
  (if a.tls then secureScheme else plainScheme) ++ a.host ++ databaseMark ++ a.database

/-- The absolute path of the object. -/
def fullPath (a : Address) : String :=
  a.database ++ "/" ++ a.path

/-- The handle of the object. -/
def handle (a : Address) : String :=
  a.endpoint ++ pathMark ++ a.path

/-- The first reason for which the four parts could not be read back from their handle. -/
def fault? (a : Address) : Option HandleFault :=
  if a.host.isEmpty then some .emptyHost
  else if a.host.toList.contains '/' then some .hostWithSlash
  else if a.database.toList.head? ≠ some '/' then some .relativeDatabase
  else if a.database.toList.any fun c => c = '?' || c = '&' then some .databaseWithSeparator
  else if a.path.isEmpty then some .emptyEntityPath
  else none

/-- The address of four parts, if they can be read back from their handle. -/
def make (host : String) (tls : Bool) (database path : String) : Except Error Address :=
  let a : Address := ⟨host, tls, database, path⟩
  match a.fault? with
  | none => .ok a
  | some fault => .error (.malformedHandle a.handle fault)

/-! ## Reading handles -/

/-- Whether the scheme stands for TLS, and what follows it. -/
def readScheme? (text : List Char) : Option (Bool × List Char) :=
  match secureScheme.toList.isPrefixOf? text with
  | some rest => some (true, rest)
  | none => (plainScheme.toList.isPrefixOf? text).map fun rest => (false, rest)

/-- The database path and the object path of what follows the database mark: split at the
leftmost path mark, or at the fourth slash if there is no mark and something follows the
slash. -/
def splitPaths? (text : List Char) : Option (List Char × List Char) :=
  match Text.splitFirst? [pathMark.toList, oldPathMark.toList] text with
  | some parts => some parts
  | none => (Text.splitNth? '/' unmarkedSlashes text).filter fun (_, path) => !path.isEmpty

/-- The address a text names, or the first fault of the text. -/
def ofChars (text : List Char) : Except HandleFault Address := do
  if text.isEmpty then throw .emptyHandle
  let some (tls, rest) := readScheme? text | throw .unknownScheme
  let some (host, paths) := Text.splitFirst? [databaseMark.toList] rest
    | throw .noDatabaseSection
  if host.isEmpty then throw .emptyHost
  let some (database, path) := splitPaths? paths | throw .noEntityPath
  if path.isEmpty then throw .emptyEntityPath
  if database.head? ≠ some '/' then throw .relativeDatabase
  return ⟨.ofList host, tls, .ofList database, .ofList path⟩

/-- The address a handle names. -/
def ofHandle (handle : String) : Except Error Address :=
  match ofChars handle.toList with
  | .ok a => .ok a
  | .error fault => .error (.malformedHandle handle fault)

end Address

end SchemaPlan
