import SchemaPlan.Text.Split

/-!
# Arguments of a command line

A `Switch` is an option with a long name, and maybe a letter, that stands for itself or takes a
value. `readArguments` goes through arguments from left to right and sorts them into switches
given and words: `--name value`, `--name=value`, `-l value`, `-lvalue`, `-l=value`, letters in
one group as in `-vs value`, and after `--` words only. What a switch is given is kept in order.
-/

namespace SchemaPlan.CommandLine

/-- What a switch stands for. -/
inductive Arity where
  /-- It stands for itself. -/
  | flag
  /-- It asks for the version of the program. -/
  | version
  /-- It asks how the program is used. -/
  | help
  /-- It takes a text. -/
  | text
  /-- It takes the path of a file or directory, which is not empty. -/
  | path
  /-- It takes texts separated by commas, and may be given several times. -/
  | list
  deriving Repr, DecidableEq

/-- An option of a command line. -/
structure Switch where
  name : String
  letter : Option Char := none
  arity : Arity
  deriving Repr, DecidableEq

/-- Why arguments cannot be understood. -/
inductive UsageError where
  | unknownArgument (argument : String)
  | unknownCommand (word : String)
  | missingCommand
  | missingArgument (name : String)
  | missingValue (switch : String)
  | unexpectedValue (switch : String)
  | emptyValue (switch : String)
  | repeated (switch : String)
  deriving Repr, DecidableEq

/-- The wording of a usage error. -/
def UsageError.message : UsageError → String
  | unknownArgument argument => "unexpected argument '" ++ argument ++ "'"
  | unknownCommand word => "unknown command '" ++ word ++ "'"
  | missingCommand => "a command is required"
  | missingArgument name => "the argument '" ++ name ++ "' is required"
  | missingValue switch => "a value is required for '--" ++ switch ++ "'"
  | unexpectedValue switch => "'--" ++ switch ++ "' takes no value"
  | emptyValue switch => "the value of '--" ++ switch ++ "' must not be empty"
  | repeated switch => "'--" ++ switch ++ "' cannot be used more than once"

/-- Why reading arguments ends before their end. -/
inductive Stop where
  | version
  | help
  | usage (e : UsageError)
  deriving Repr, DecidableEq

/-- The switches given so far with their values. -/
abbrev Given := List (String × List String)

/-- Switches given, words, and the arguments that have not been read. -/
structure Arguments where
  given : Given := []
  words : List String := []
  rest : List String := []
  deriving Repr, DecidableEq

namespace Given

/-- The values of a switch, if it is given. -/
def values? (given : Given) (name : String) : Option (List String) :=
  given.lookup name

/-- The value of a switch, if it is given. -/
def value? (given : Given) (name : String) : Option String :=
  (given.values? name).bind List.head?

/-- Whether a switch is given. -/
def has (given : Given) (name : String) : Bool :=
  (given.values? name).isSome

/-- The switches with one more that may be given once. -/
def addOnce (given : Given) (name : String) (values : List String) : Except Stop Given :=
  if given.has name then .error (.usage (.repeated name)) else .ok (given ++ [(name, values)])

/-- The switches with one more that takes no value. -/
def addBare (given : Given) (s : Switch) : Except Stop Given :=
  match s.arity with
  | .version => .error .version
  | .help => .error .help
  | _ => given.addOnce s.name []

/-- The switches with one more that takes a value. -/
def addValue (given : Given) (s : Switch) (value : String) : Except Stop Given :=
  match s.arity with
  | .path =>
    if value.isEmpty then .error (.usage (.emptyValue s.name)) else given.addOnce s.name [value]
  | .list =>
    let values := (Text.splitOn ',' value.toList).map String.ofList
    .ok ((s.name, (given.values? s.name).getD [] ++ values)
      :: given.filter fun g => g.1 ≠ s.name)
  | _ => given.addOnce s.name [value]

end Given

/-- Whether a switch takes a value. -/
def Switch.takesValue (s : Switch) : Bool :=
  s.arity = .text || s.arity = .path || s.arity = .list

/-! ## Kinds of arguments -/

/-- What an argument looks like. -/
inductive Shape where
  | word
  /-- Two dashes alone: words follow. -/
  | onlyWords
  /-- A long name after two dashes, with the text after an equals sign. -/
  | long (name : String) (value : Option String)
  /-- Letters after one dash. -/
  | group (letters : List Char)
  deriving Repr, DecidableEq

/-- The shape of an argument; a dash alone is a word. -/
def Shape.of (argument : String) : Shape :=
  match argument.toList with
  | ['-', '-'] => .onlyWords
  | '-' :: '-' :: text =>
    match Text.splitFirst? [['=']] text with
    | some (name, value) => .long (.ofList name) (some (.ofList value))
    | none => .long (.ofList text) none
  | ['-'] => .word
  | '-' :: letters => .group letters
  | _ => .word

/-- The switches given after a group of letters, and the switch whose value is the next argument,
if the last letter takes a value. -/
def readLetters (switches : List Switch) (argument : String) (given : Given) :
    List Char → Except Stop (Given × Option Switch)
  | [] => .ok (given, none)
  | letter :: letters =>
    match switches.find? fun s => s.letter = some letter with
    | none => .error (.usage (.unknownArgument argument))
    | some s =>
      if s.takesValue then
        match letters with
        | [] => .ok (given, some s)
        | '=' :: value => (given.addValue s (.ofList value)).map (·, none)
        | value => (given.addValue s (.ofList value)).map (·, none)
      else do readLetters switches argument (← given.addBare s) letters

/-- The switches given after a long name, and the switch whose value is the next argument. -/
def readLong (switches : List Switch) (argument : String) (given : Given) (name : String)
    (value : Option String) : Except Stop (Given × Option Switch) :=
  match switches.find? fun s => s.name = name with
  | none => .error (.usage (.unknownArgument argument))
  | some s =>
    match s.takesValue, value with
    | true, some value => (given.addValue s value).map (·, none)
    | true, none => .ok (given, some s)
    | false, some _ => .error (.usage (.unexpectedValue s.name))
    | false, none => (given.addBare s).map (·, none)

/-- The switches given after an argument that is none of the words. -/
def readSwitch (switches : List Switch) (argument : String) (given : Given) :
    Shape → Except Stop (Given × Option Switch)
  | .long name value => readLong switches argument given name value
  | .group letters => readLetters switches argument given letters
  | _ => .error (.usage (.unknownArgument argument))

/-- Reads arguments. A word ends the reading if `untilWord`; it is then the first argument of the
rest. A switch that takes a value takes the next argument, which has to be a word. -/
def readArguments (switches : List Switch) (untilWord : Bool) (given : Given)
    (words : List String) : List String → Except Stop Arguments
  | [] => .ok ⟨given, words, []⟩
  | argument :: rest =>
    match Shape.of argument with
    | .word =>
      if untilWord then .ok ⟨given, words, argument :: rest⟩
      else readArguments switches untilWord given (words ++ [argument]) rest
    | .onlyWords => .ok ⟨given, words ++ rest, []⟩
    | shape =>
      match readSwitch switches argument given shape with
      | .error stop => .error stop
      | .ok (given, none) => readArguments switches untilWord given words rest
      | .ok (given, some s) =>
        match rest with
        | [] => .error (.usage (.missingValue s.name))
        | value :: rest =>
          if Shape.of value = .word then
            match given.addValue s value with
            | .error stop => .error stop
            | .ok given => readArguments switches untilWord given words rest
          else .error (.usage (.missingValue s.name))

end SchemaPlan.CommandLine
