import SchemaPlan.Address
import SchemaPlan.CommandLine.Invocation
import SchemaPlan.Planner

/-!
# Running command lines

`run` is the whole program but for its input and output: from the arguments, the environment and
a way to read files it makes an `Outcome`, what is to be printed and the exit code. The code is 0
if all went well, 1 if the command failed and 2 if the arguments were not understood; nothing is
printed on the standard output unless it is 0.
-/

namespace SchemaPlan.CommandLine

/-- What a run of the program leaves. -/
structure Outcome where
  code : Nat
  output : String := ""
  /-- What went wrong, for the error output. -/
  complaint : String := ""
  deriving Repr, DecidableEq

/-- Why a command fails. -/
inductive Failure where
  | unreadable (file : String)
  | malformed (file : String)
  | planning (e : Error)
  deriving Repr, DecidableEq

/-- The wording of a failure. -/
def Failure.message : Failure → String
  | unreadable file => "cannot read " ++ file
  | malformed file => "cannot understand " ++ file
  | planning e => e.message

/-- The name and the version of the program. -/
def version : String := "ydb-reconcile 0.1.0"

/-- How the program is used. -/
def usage : String :=
  "usage: ydb-reconcile [--endpoint HOST] [--database PATH] [--tls] [--snapshots DIR]\n"
    ++ "  [--codecs NAMES] [--verbose] COMMAND\n"
    ++ "commands:\n"
    ++ "  plan-table --desired FILE [--id HANDLE] [--keep-changed-indexes] [--ignore-settings]\n"
    ++ "  plan-topic --desired FILE [--id HANDLE]\n"
    ++ "  encode-id --path PATH\n"
    ++ "  decode-id HANDLE"

/-- Texts, each on a line of its own. -/
def lines (texts : List String) : String :=
  String.join (texts.map fun text => text ++ "\n")

/-- The statements of a plan, each ended by a semicolon. -/
def writePlan (plan : Plan) : String :=
  lines (plan.statements.map fun statement => Text.trimEnd statement ++ ";")

/-- The parts of an address. -/
def writeAddress (a : Address) : String :=
  lines ["endpoint: " ++ a.host, "tls:      " ++ (if a.tls then "true" else "false"),
    "database: " ++ a.database, "path:     " ++ a.path]

namespace Invocation

/-- The codecs that may be used. -/
def codecTable (i : Invocation) : Except Error CodecTable :=
  if i.codecs.isEmpty then .ok .standard
  else (CodecTable.standard.lookupAll i.codecs).map CodecTable.mk

/-- The address of a handle, or of a path in the database of the invocation. -/
def address (i : Invocation) (handle : Option String) (path : String) : Except Error Address :=
  match handle with
  | some handle => Address.ofHandle handle
  | none => Address.make i.endpoint i.tls i.database path

/-- The value of the document in a file. -/
def decode {α : Type} (form : Json.Value → Option α) (file : String) :
    Reading → Except Failure α
  | .content text =>
    match (Json.read? text).bind form with
    | some a => .ok a
    | none => .error (.malformed file)
  | _ => .error (.unreadable file)

variable {m : Type → Type} [Monad m]

/-- A step of planning. -/
def planning {α : Type} (step : ExceptT Error m α) : ExceptT Failure m α :=
  ExceptT.adapt .planning step

/-- A step of planning that reads nothing. -/
def pureStep {α : Type} (step : Except Error α) : ExceptT Failure m α :=
  planning (ExceptT.mk (pure step))

/-- The planner of an invocation. -/
def planner (i : Invocation) (read : String → m Reading) (codecs : CodecTable)
    (options : PlanOptions) : Planner m :=
  ⟨Snapshot.observer read i.snapshots, codecs, options⟩

/-- What the command of an invocation prints. -/
def print (i : Invocation) (read : String → m Reading) : ExceptT Failure m String := do
  let codecs ← pureStep i.codecTable
  match i.command with
  | .planTable file handle options =>
    let declared ← decode Table.ofJson? file (← read file)
    let address ← pureStep (i.address handle declared.path)
    return writePlan (← planning ((i.planner read codecs options).planTable address declared))
  | .planTopic file handle =>
    let declared ← decode DeclaredTopic.ofJson? file (← read file)
    let address ← pureStep (i.address handle declared.path)
    return writePlan (← planning ((i.planner read codecs {}).planTopic address declared))
  | .writeHandle path =>
    let address ← pureStep (i.address none path)
    return lines [address.handle]
  | .readHandle handle =>
    return writeAddress (← pureStep (Address.ofHandle handle))

end Invocation

/-- The outcome of a command. -/
def Outcome.ofResult : Except Failure String → Outcome
  | .ok output => { code := 0, output }
  | .error failure => { code := 1, complaint := "Error: " ++ failure.message }

/-- The outcome of arguments that ask for no command, or for none that is understood. -/
def Outcome.ofStop : Stop → Outcome
  | .version => { code := 0, output := lines [version] }
  | .help => { code := 0, output := lines [usage] }
  | .usage e => { code := 2, complaint := "error: " ++ e.message ++ "\n\n" ++ usage }

/-- Runs the program on its arguments. -/
def run {m : Type → Type} [Monad m] (environment : Environment) (read : String → m Reading)
    (arguments : List String) : m Outcome :=
  match Invocation.ofArguments environment arguments with
  | .error stop => pure (.ofStop stop)
  | .ok invocation => Outcome.ofResult <$> (invocation.print read).run

end SchemaPlan.CommandLine
