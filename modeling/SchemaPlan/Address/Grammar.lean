import SchemaPlan.Address

/-!
# The grammar of handles

`Address.IsHandle` says which texts are handles of an address: the scheme, the host, the mark in
front of the database path, and then the two paths with a separator between them.
`Address.Separates` says where the paths are separated: at the leftmost of the marks, or at the
fourth slash if there is none.
-/

namespace SchemaPlan.Address

/-- The marks that may stand in front of the object path, the one that is written and the older
one. -/
def objectMarks : List String :=
  ["&path=", "?path="]

/-- `paths` is the path of the database and the path of the object with `separator` between them,
and that is where they are told apart. -/
inductive Separates (paths separator database path : String) : Prop
  /-- The separator is the leftmost mark. -/
  | mark (hmark : separator ∈ objectMarks) (text : paths = database ++ separator ++ path)
    (leftmost : ∀ other ∈ objectMarks, ∀ front back, paths = front ++ other ++ back →
      database.length ≤ front.length)
  /-- There is no mark, and the separator is the fourth slash. -/
  | slash (hslash : separator = "/") (text : paths = database ++ separator ++ path)
    (unmarked : ∀ other ∈ objectMarks, ∀ front back, paths ≠ front ++ other ++ back)
    (fourth : database.toList.count '/' = 3)

/-- The text `raw` is a handle of the address: it ends in `paths`, in which `separator` stands
between the two paths. -/
structure IsHandle (raw paths separator : String) (a : Address) : Prop where
  text : raw = (if a.tls then "grpcs://" else "grpc://") ++ a.host ++ "/?database=" ++ paths
  host_ne : a.host ≠ ""
  host_unmarked : ∀ front back, a.host ≠ front ++ "/?database=" ++ back
  separates : Separates paths separator a.database a.path
  database_absolute : a.database.toList.head? = some '/'
  path_ne : a.path ≠ ""

end SchemaPlan.Address
