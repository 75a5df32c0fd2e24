import SchemaPlan.Json.Value

/-!
# Reading JSON documents

`read?` gives the value of a text that is one JSON document. The tokens are taken one after the
other; a `State` holds the arrays and objects that are open, innermost first, and says what may
come next. So a document may be nested to any depth.
-/

namespace SchemaPlan.Json

/-- The members read so far of an open object, last one first; `none` once a key has had no
value. -/
abbrev Members := Option (List (String × Value))

/-- The members with one more. -/
def Members.add (members : Members) (key : Option String) (v : Value) : Members :=
  match members, key with
  | some members, some key => some ((key, v) :: members)
  | _, _ => none

/-- The object of all its members. -/
def Members.close : Members → Value
  | some members => .object members.reverse
  | none => .malformed

/-- An open array or object around the value that is read. -/
inductive Frame where
  /-- An array and its items so far, last one first. -/
  | array (items : List Value)
  /-- An object, its members so far and the key the value is for. -/
  | object (members : Members) (key : Option String)

/-- What has been read, and what may come next. -/
inductive State where
  /-- A value comes next, or the end of the array if `fresh`. -/
  | item (frames : List Frame) (fresh : Bool)
  /-- A key comes next, or the end of the object if `fresh`. -/
  | key (frames : List Frame) (members : Members) (fresh : Bool)
  /-- The colon after a key comes next. -/
  | colon (frames : List Frame) (members : Members) (key : Option String)
  /-- A value is complete; what follows is up to the frames around it. -/
  | complete (frames : List Frame) (v : Value)

/-- The state after a token where a value is expected. -/
def State.stepItem (frames : List Frame) (fresh : Bool) : Token → Option State
  | .null => some (.complete frames .null)
  | .bool b => some (.complete frames (.bool b))
  | .natural n => some (.complete frames (.natural n))
  | .number spelling => some (.complete frames (.number spelling))
  | .string (some s) => some (.complete frames (.string s))
  | .string none => some (.complete frames .malformed)
  | .openArray => some (.item (.array [] :: frames) true)
  | .openObject => some (.key frames (some []) true)
  | .closeArray =>
    match fresh, frames with
    | true, .array items :: frames => some (.complete frames (.array items.reverse))
    | _, _ => none
  | _ => none

/-- The state after a token behind a complete value. -/
def State.stepComplete (v : Value) : List Frame → Token → Option State
  | .array items :: frames, .comma => some (.item (.array (v :: items) :: frames) false)
  | .array items :: frames, .closeArray => some (.complete frames (.array (v :: items).reverse))
  | .object members name :: frames, .comma => some (.key frames (members.add name v) false)
  | .object members name :: frames, .closeObject =>
    some (.complete frames (members.add name v).close)
  | _, _ => none

/-- The state after a token. -/
def State.step : State → Token → Option State
  | item frames fresh, token => stepItem frames fresh token
  | key frames members _, .string name => some (.colon frames members name)
  | key frames members true, .closeObject => some (.complete frames members.close)
  | key _ _ _, _ => none
  | colon frames members name, .colon => some (.item (.object members name :: frames) false)
  | colon _ _ _, _ => none
  | complete frames v, token => stepComplete v frames token

/-- The state after a list of tokens. -/
def State.run : State → List Token → Option State
  | state, [] => some state
  | state, token :: tokens => (state.step token).bind fun next => next.run tokens

/-- The value of a list of tokens that is one document. -/
def ofTokens? (tokens : List Token) : Option Value :=
  match State.run (.item [] false) tokens with
  | some (.complete [] v) => some v
  | _ => none

/-- The value of a text that is one document. -/
def read? (text : String) : Option Value :=
  (tokens? text.toList).bind ofTokens?

end SchemaPlan.Json
