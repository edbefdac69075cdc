import BulkLoad.Api.Client
import BulkLoad.Command.FileSettings
import BulkLoad.Import.SessionDriver

/-!
# Jobs

A job is a command with all that it runs with: the settings of the file, the environment and the
command line are put together and checked before anything is sent (`Job.ofInvocation`). Of several
faults, that of the columns counts before that of the import, and both before that of the client.
-/

namespace BulkLoad.Command

/-- What is done. -/
inductive Task
  | load (settings : Import.Settings) (schema : Schema) (input : String) (json : Bool)
  | show (session : String) (json : Bool)
  | complete (session : String) (priority : Int)
  | delete (session : String)
  | databases (json : Bool)
deriving DecidableEq

/-- What is done, and how it is gone about. -/
structure Job where
  driver : Import.SessionDriver
  task : Task

namespace FileSettings

/-- Reads the settings from the content of a file, or from why it could not be read. -/
def ofFile (library : Library) (path : String) :
    Except String (List UInt8) → Except Error FileSettings
  | .error detail => .error (.unreadable path detail)
  | .ok content =>
    match Text.Utf8.decode? content with
    | some s => ofText library s
    | none => .error (.unreadable path "stream did not contain valid UTF-8")

/-- The client of the settings. -/
def clientFor (library : Api.Library) (s : FileSettings) (lookup : String → Option String)
    (serverUrl : Option String) : Except Error Api.Client := do
  let settings ← s.clientSettings library lookup serverUrl
  (Api.Client.ofSettings library settings).mapError .api

/-- How the settings go about sessions. -/
def driverFor (s : FileSettings) (client : Api.Client) : Import.SessionDriver :=
  match s.importing with
  | some settings => .ofSettings client settings
  | none => { client }

end FileSettings

namespace Task

/-- The task that a command asks for. -/
def ofAction (s : FileSettings) : Action → Except Error Task
  | .load a => do
    let schema ← s.schema
    let settings ← s.importSettings a
    return .load settings schema a.input a.json
  | .show session json => .ok (.show session json)
  | .complete session priority =>
    if Import.isPriority priority then .ok (.complete session priority)
    else .error (.settings (.priority priority))
  | .delete session => .ok (.delete session)
  | .databases json => .ok (.databases json)

end Task

/-- The job that a command line asks for. -/
def Job.ofInvocation (library : Api.Library) (s : FileSettings) (lookup : String → Option String)
    (invocation : Invocation) : Except Error Job := do
  let task ← Task.ofAction s invocation.action
  let client ← s.clientFor library lookup invocation.serverUrl
  return ⟨s.driverFor client, task⟩

end BulkLoad.Command
