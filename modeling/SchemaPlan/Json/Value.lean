import SchemaPlan.Json.Token

/-!
# JSON values

A `Value` is what a JSON document denotes. Objects keep their members in the order of the
document, repeated keys included, so that a reader can refuse repetitions; numbers that are not
natural keep their spelling. `Value.write` writes a value without white space, the members of an
object in their order.
-/

namespace SchemaPlan.Json

/-- What a JSON document denotes. -/
inductive Value where
  | null
  | bool (b : Bool)
  /-- A number written with digits only. -/
  | natural (n : Nat)
  /-- A number written with a sign, a point or an exponent. -/
  | number (spelling : String)
  | string (s : String)
  | array (items : List Value)
  | object (members : List (String × Value))
  /-- A string, or an object one of whose keys is a string, in which an escape stands for half a
  character. It can be passed over, but it has no value. -/
  | malformed
  deriving Repr

/-! ## Writing -/

mutual

/-- The tokens of a value. -/
def Value.tokens : Value → List Token
  | .null => [.null]
  | .bool b => [.bool b]
  | .natural n => [.natural n]
  | .number spelling => [.number spelling]
  | .string s => [.string (some s)]
  | .array [] => [.openArray, .closeArray]
  | .array (v :: items) => .openArray :: (v.tokens ++ moreItems items ++ [.closeArray])
  | .object [] => [.openObject, .closeObject]
  | .object ((key, v) :: members) =>
    .openObject :: .string (some key) :: .colon ::
      (v.tokens ++ moreMembers members ++ [.closeObject])
  | .malformed => [.string none]

/-- The tokens of the items of an array after its first. -/
def moreItems : List Value → List Token
  | [] => []
  | v :: items => .comma :: (v.tokens ++ moreItems items)

/-- The tokens of the members of an object after its first. -/
def moreMembers : List (String × Value) → List Token
  | [] => []
  | (key, v) :: members =>
    .comma :: .string (some key) :: .colon :: (v.tokens ++ moreMembers members)

end

/-- The document of a value. -/
def Value.write (v : Value) : String :=
  .ofList (v.tokens.flatMap Token.chars)

end SchemaPlan.Json
