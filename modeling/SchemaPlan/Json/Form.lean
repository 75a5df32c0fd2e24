import SchemaPlan.Json.Reader

/-!
# Forms of values

A form reads a value of the library from a JSON value: `none` says that the JSON value has
another form. A record is an object, whose unknown members are passed over and whose known
members stand at most once, or the array of its fields in order. `Fields.required?`,
`Fields.optional?` and `Fields.withDefault?` read one field.
-/

namespace SchemaPlan.Json

namespace Value

/-- A string. -/
def string? : Value → Option String
  | .string s => some s
  | _ => none

/-- A truth value. -/
def bool? : Value → Option Bool
  | .bool b => some b
  | _ => none

/-- A number of sixty-four bits. -/
def word? : Value → Option UInt64
  | .natural n => if n < UInt64.size then some (.ofNat n) else none
  | _ => none

/-- An array whose items all have one form. -/
def list? {α : Type} (form : Value → Option α) : Value → Option (List α)
  | .array items => items.mapM form
  | _ => none

/-- A value of the given form, or nothing in place of `null`. -/
def orNull? {α : Type} (form : Value → Option α) : Value → Option (Option α)
  | .null => some none
  | v => (form v).map some

/-- One of a list of named cases: the name, or an object of the name and `null`. -/
def case? {α : Type} (cases : List (String × α)) : Value → Option α
  | .string s => cases.lookup s
  | .object [(s, .null)] => cases.lookup s
  | _ => none

end Value

/-! ## Records -/

/-- The known fields that a record gives, each at most once. -/
abbrev Fields := List (String × Value)

/-- The fields of a record whose fields are called `names`, given as an object. -/
def Value.namedFields? (names : List String) : Value → Option Fields
  | .object members =>
    let known := members.filter fun m => m.1 ∈ names
    if (known.map Prod.fst).Nodup then some known else none
  | _ => none

/-- The fields of a record whose fields are called `names`, given as an object or in order. -/
def Value.fields? (names : List String) : Value → Option Fields
  | .array items => if items.length ≤ names.length then some (names.zip items) else none
  | v => v.namedFields? names

namespace Fields

variable {α : Type}

/-- A field that the record must give. -/
def required? (fields : Fields) (name : String) (form : Value → Option α) : Option α :=
  (fields.lookup name).bind form

/-- A field that has the value `default` if the record does not give it. -/
def withDefault? (fields : Fields) (name : String) (default : α) (form : Value → Option α) :
    Option α :=
  match fields.lookup name with
  | some v => form v
  | none => some default

/-- A field that the record need not give and for which it may give `null`. -/
def optional? (fields : Fields) (name : String) (form : Value → Option α) : Option (Option α) :=
  fields.withDefault? name none (Value.orNull? form)

end Fields

/-! ## Writing -/

namespace Value

/-- A number of sixty-four bits as a value. -/
def word (n : UInt64) : Value :=
  .natural n.toNat

/-- A list as an array. -/
def list {α : Type} (write : α → Value) (items : List α) : Value :=
  .array (items.map write)

/-- A list of strings as an array. -/
def strings (items : List String) : Value :=
  list .string items

/-- A value, or `null` for nothing. -/
def orNull {α : Type} (write : α → Value) : Option α → Value
  | some a => write a
  | none => .null

end Value

/-- The member of an object for a value that may be absent: no member if it is. -/
def memberIfSome {α : Type} (name : String) (write : α → Value) :
    Option α → List (String × Value)
  | some a => [(name, write a)]
  | none => []

/-- The member of an object for a list: no member if the list is empty. -/
def memberIfAny {α : Type} (name : String) (write : List α → Value) :
    List α → List (String × Value)
  | [] => []
  | items => [(name, write items)]

end SchemaPlan.Json
