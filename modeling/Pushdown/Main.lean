import Pushdown.Command.Run
import Pushdown.Json.Reader
import Pushdown.Postgres.Introspection
import Pushdown.Postgres.Script

/-!
# The program

The program reads its command line, the file of settings and the recorded server at the address of
the database, which is the path of a JSON document, and prints what the command comes to. Nothing is
decided here.
-/

namespace Pushdown.Main

/-- The file error of an error of the system. A path through a file and the path of a directory are
told apart by the number of the error. -/
def fileError : IO.Error → FileError
  | .noFileOrDirectory .. => .notFound
  | .permissionDenied .. => .denied
  | .inappropriateType _ code _ => if code = 21 then .isDirectory else .notDirectory
  | .userError _ => .notText
  | _ => .denied

/-- The text of a file. -/
def readText (path : String) : IO (Except FileError String) := do
  try
    return .ok (← IO.FS.readFile path)
  catch e => return .error (fileError e)

/-- A server that turns every client away. -/
def closedServer (message : String) : Postgres.Server where
  refusal := some message
  hasSchema _ := false
  tables := []
  columns := []
  schemaFailure := none
  tablesFailure := none
  columnsFailure := none
  watchFailure := none
  result _ := []

/-- The server that a text records. -/
def serverOf : Except FileError String → Postgres.Server
  | .error e => closedServer e.message
  | .ok text =>
    match (Json.read text.toList).toOption.bind Postgres.Server.ofJson? with
    | some server => server
    | none => closedServer "the file records no server"

/-- The server at an address. -/
def serverAt : Option String → IO Postgres.Server
  | some address => return serverOf (← readText address)
  | none => return closedServer "there is no address"

/-- Runs an invocation and prints what it comes to. -/
def run (environment : Option String) (invocation : Command.Invocation) : IO UInt32 := do
  let settings ← match invocation.config? with
    | some path => readText path
    | none => pure (.error .notFound)
  let server ← serverAt (invocation.address? (fun _ => settings) environment)
  let outcome := invocation.perform (fun _ => settings) server.source environment
  IO.print outcome.output
  IO.eprint outcome.errorText
  return outcome.exitCode.toUInt32

end Pushdown.Main

/-- Runs the program; a command line that breaks the rules exits with two. -/
def main (arguments : List String) : IO UInt32 := do
  let environment ← IO.getEnv "DATABASE_URL"
  match Pushdown.Command.Invocation.read? environment arguments with
  | some invocation => Pushdown.Main.run environment invocation
  | none =>
    IO.eprintln "error: the arguments are not those of a command"
    return 2
