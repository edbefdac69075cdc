import BulkLoad.Api.Settings
import BulkLoad.Command.Arguments
import BulkLoad.Command.Error
import BulkLoad.Toml.Read

/-!
# Settings of a command

A settings file has a section for the client, one for the import and the columns of the input. What
a command runs with comes from the file, from the environment and from the command line; a later one
of these overrides an earlier one (`clientSettings`, `importSettings`). How a server URL is read is
left to a library, as are the words for a file that is not well formed (`Library`).
-/

namespace BulkLoad.Command

/-- What a command leaves to others. -/
structure Library extends Api.Library where
  /-- What keeps a text from being a document. -/
  jsonWords : String → String
  /-- What keeps a text from being the settings of a file. -/
  tomlWords : String → String

/-- The settings of a file. -/
structure FileSettings where
  client : Api.Settings := {}
  importing : Option Import.Settings := none
  columns : List Column := []
deriving DecidableEq, Repr

namespace FileSettings

def decoder : Json.Decoder FileSettings :=
  .record {}
    [.may "client" Api.Settings.decoder fun s client => { s with client },
      .may "import" (.nullable Import.Settings.decoder) fun s importing => { s with importing },
      .may "columns" (.list Column.decoder) fun s columns => { s with columns }]

/-- Reads a settings file. -/
def ofText (library : Library) (s : String) : Except Error FileSettings :=
  match (Toml.parse? s).bind (Json.decode? decoder) with
  | some settings => .ok settings
  | none => .error (.settingsFile (library.tomlWords s))

/-- The schema of the input. -/
def schema (s : FileSettings) : Except Error Schema :=
  if s.columns.isEmpty then .error (.settings .noColumns)
  else match Schema.ofColumns s.columns with
    | .ok schema => .ok schema
    | .error e => .error (.schema e)

/-- The settings of the client, before they are checked: a server URL gives the host, the port and
the scheme. -/
def mergedClient (library : Api.Library) (s : FileSettings) (lookup : String → Option String)
    (serverUrl : Option String) : Except Api.Error Api.Settings :=
  let merged := s.client.applyVariables lookup
  match serverUrl with
  | none => .ok merged
  | some url => merged.atUrl library url

/-- The settings of the client. -/
def clientSettings (library : Api.Library) (s : FileSettings) (lookup : String → Option String)
    (serverUrl : Option String) : Except Error Api.Settings :=
  match (do
    let merged ← s.mergedClient library lookup serverUrl
    merged.check
    return merged : Except Api.Error Api.Settings) with
  | .ok settings => .ok settings
  | .error e => .error (.api e)

/-- Overrides settings by what the command line gives. -/
def override (s : Import.Settings) (a : ImportArguments) : Import.Settings :=
  { s with
    database := a.database.getD s.database
    table := a.table.getD s.table
    session := a.session.or s.session
    mode := a.mode.getD s.mode
    priority := a.priority.getD s.priority
    uploads := a.parallel.getD s.uploads
    stopOnInvalid := a.stopOnInvalid || s.stopOnInvalid }

/-- The settings of the import. -/
def importSettings (s : FileSettings) (a : ImportArguments) : Except Error Import.Settings := do
  let base ← match s.importing, a.database, a.table with
    | some base, _, _ => pure base
    | none, some database, some table => pure { database, table }
    | none, _, _ => throw (.settings .noDestination)
  let merged := override base a
  match merged.check with
  | .ok () => return merged
  | .error fault => throw (.importing (.settings fault))

end FileSettings

end BulkLoad.Command
