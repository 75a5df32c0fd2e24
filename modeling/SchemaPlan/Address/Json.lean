import SchemaPlan.Address
import SchemaPlan.Json.Form

/-!
# JSON form of addresses

An address is written as the string of its handle, and any handle is read. So there are three ways
to an address: it is made of four parts, read from a handle or read from the JSON form. `Built` and
`Read` say which way was taken; `DatabaseSeparated` is a fault that an address can have only if it
was read.
-/

namespace SchemaPlan.Address

open Json

def ofJson? : Value → Option Address
  | .string handle => (ofHandle handle).toOption
  | _ => none

def toJson (a : Address) : Value :=
  .string a.handle

/-! ## Ways to an address -/

/-- An address that was made of four parts or read from a handle. -/
def Built (a : Address) : Prop :=
  (∃ host tls database path, make host tls database path = .ok a) ∨
    ∃ handle, ofHandle handle = .ok a

/-- An address that was read, from a handle or from the JSON form. -/
def Read (a : Address) : Prop :=
  (∃ handle, ofHandle handle = .ok a) ∨ ∃ value, ofJson? value = some a

/-- The database path holds a character that separates the parts of a query. -/
def DatabaseSeparated (a : Address) : Prop :=
  ∃ c ∈ a.database.toList, c = '?' ∨ c = '&'

-- the characters of the path are looked at one by one, not every character there is
instance : DecidablePred DatabaseSeparated := fun a =>
  List.decidableBEx (fun c => c = '?' ∨ c = '&') a.database.toList

end SchemaPlan.Address
