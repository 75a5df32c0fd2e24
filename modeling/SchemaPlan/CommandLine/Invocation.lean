import SchemaPlan.CommandLine.Arguments
import SchemaPlan.Plan

/-!
# Invocations

An `Invocation` is a command line that has been understood: the settings that all commands share
and the `Command` to run. `Invocation.ofArguments` reads it from the arguments and from the
environment, whose values stand in for arguments that are not given.
-/

namespace SchemaPlan.CommandLine

/-- The values of the environment variables `endpointVariable` and `databaseVariable`. -/
structure Environment where
  endpoint : Option String := none
  database : Option String := none
  deriving Repr, DecidableEq

/-- The variable for the host of the endpoint. -/
def Environment.endpointVariable : String := "YDB_ENDPOINT"

/-- The variable for the path of the database. -/
def Environment.databaseVariable : String := "YDB_DATABASE"

/-- What the program is asked to do. -/
inductive Command where
  /-- Plan the table declared in a file, at the address of a handle if one is given. -/
  | planTable (file : String) (handle : Option String) (options : PlanOptions)
  /-- Plan the topic declared in a file, at the address of a handle if one is given. -/
  | planTopic (file : String) (handle : Option String)
  /-- Write the handle of an object path. -/
  | writeHandle (path : String)
  /-- Write the parts of a handle. -/
  | readHandle (handle : String)
  deriving Repr, DecidableEq

/-- A command line that has been understood. -/
structure Invocation where
  endpoint : String
  database : String
  tls : Bool
  snapshots : String
  /-- Names of the codecs that may be used; none for all codecs. -/
  codecs : List String
  command : Command
  deriving Repr, DecidableEq

/-! ## Switches -/

/-- Asks how the program, or a command, is used. -/
def helpSwitch : Switch := { name := "help", letter := some 'h', arity := .help }

/-- The switches in front of the command. -/
def sharedSwitches : List Switch :=
  [{ name := "endpoint", letter := some 'e', arity := .text },
    { name := "database", letter := some 'd', arity := .text },
    { name := "tls", arity := .flag },
    { name := "snapshots", letter := some 's', arity := .path },
    { name := "codecs", arity := .list },
    { name := "verbose", letter := some 'v', arity := .flag },
    { name := "version", letter := some 'V', arity := .version },
    helpSwitch]

/-- The switches of the command that plans a table. -/
def planTableSwitches : List Switch :=
  [{ name := "desired", arity := .path }, { name := "id", arity := .text },
    { name := "keep-changed-indexes", arity := .flag },
    { name := "ignore-settings", arity := .flag }, helpSwitch]

/-- The switches of the command that plans a topic. -/
def planTopicSwitches : List Switch :=
  [{ name := "desired", arity := .path }, { name := "id", arity := .text }, helpSwitch]

/-- The switches of the command that writes a handle. -/
def writeHandleSwitches : List Switch :=
  [{ name := "path", arity := .text }, helpSwitch]

/-- The switches of the command that reads a handle. -/
def readHandleSwitches : List Switch :=
  [helpSwitch]

/-! ## Commands -/

/-- The value of a switch that has to be given. -/
def Given.required (given : Given) (name : String) : Except Stop String :=
  match given.value? name with
  | some value => .ok value
  | none => .error (.usage (.missingArgument name))

/-- Refuses words, for a command that takes none. -/
def noWords : List String → Except Stop Unit
  | [] => .ok ()
  | word :: _ => .error (.usage (.unknownArgument word))

/-- The one word of a command that takes one. -/
def oneWord (name : String) : List String → Except Stop String
  | [] => .error (.usage (.missingArgument name))
  | [word] => .ok word
  | _ :: word :: _ => .error (.usage (.unknownArgument word))

/-- The commands, and the request for help on them, by what they do. -/
inductive CommandName where
  | planTable
  | planTopic
  | writeHandle
  | readHandle
  | help
  deriving Repr, DecidableEq

/-- The words that name commands. -/
def CommandName.cases : List (String × CommandName) :=
  [("plan-table", .planTable), ("plan-topic", .planTopic), ("encode-id", .writeHandle),
    ("decode-id", .readHandle), ("help", .help)]

/-- The command that a word names. -/
def CommandName.ofWord? (word : String) : Option CommandName :=
  cases.lookup word

/-- Where a request for help on the command of the given words ends. All arguments are words
here; the first names a command, and as no command has commands of its own a second names none. -/
def helpOn : List String → Stop
  | [] => .help
  | word :: words =>
    match CommandName.ofWord? word, words with
    | some _, [] => .help
    | some _, unknown :: _ => .usage (.unknownCommand unknown)
    | none, _ => .usage (.unknownCommand word)

/-- The command of a name and its arguments. -/
def Command.ofArguments (name : String) (arguments : List String) : Except Stop Command := do
  match CommandName.ofWord? name with
  | some .planTable =>
    let a ← readArguments planTableSwitches false [] [] arguments
    noWords a.words
    return planTable (← a.given.required "desired") (a.given.value? "id")
      ⟨!a.given.has "keep-changed-indexes", !a.given.has "ignore-settings"⟩
  | some .planTopic =>
    let a ← readArguments planTopicSwitches false [] [] arguments
    noWords a.words
    return planTopic (← a.given.required "desired") (a.given.value? "id")
  | some .writeHandle =>
    let a ← readArguments writeHandleSwitches false [] [] arguments
    noWords a.words
    return writeHandle (← a.given.required "path")
  | some .readHandle =>
    let a ← readArguments readHandleSwitches false [] [] arguments
    return readHandle (← oneWord "handle" a.words)
  | some .help => throw (helpOn arguments)
  | none => throw (.usage (.unknownCommand name))

namespace Invocation

/-- The host of the endpoint if none is given. -/
def defaultEndpoint : String := "localhost:2136"

/-- The path of the database if none is given. -/
def defaultDatabase : String := "/local"

/-- The directory of snapshots if none is given. -/
def defaultSnapshots : String := "snapshots"

/-- The invocation of arguments in an environment. -/
def ofArguments (environment : Environment) (arguments : List String) :
    Except Stop Invocation := do
  let a ← readArguments sharedSwitches true [] [] arguments
  noWords a.words
  match a.rest with
  | [] => throw (.usage .missingCommand)
  | name :: rest =>
    return {
      endpoint := ((a.given.value? "endpoint").or environment.endpoint).getD defaultEndpoint
      database := ((a.given.value? "database").or environment.database).getD defaultDatabase
      tls := a.given.has "tls"
      snapshots := (a.given.value? "snapshots").getD defaultSnapshots
      codecs := (a.given.values? "codecs").getD []
      command := ← Command.ofArguments name rest }

end Invocation

end SchemaPlan.CommandLine
