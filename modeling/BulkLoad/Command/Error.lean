import BulkLoad.Import.Error

/-!
# Errors of commands

Why a command fails, what the user is told, and the status that the process ends with: 2 when the
settings are at fault, 130 when the command was cut short, 1 otherwise (`Error.exitStatus`).
-/

namespace BulkLoad.Command

/-- What can be wrong with the settings of a command. -/
inductive SettingsFault
  | noColumns
  | noDestination
  | priority (value : Int)
deriving DecidableEq, Repr

def SettingsFault.message : SettingsFault → String
  | .noColumns => "no input columns defined; add [[columns]] entries with name and type"
  | .noDestination =>
    "destination is not set; pass --database and --table or add an [import] section"
  | .priority value => Import.priorityRange ++ Decimal.signedText value

/-- Why a command fails. -/
inductive Error
  | api (e : Api.Error)
  | importing (e : Import.Error)
  | settings (fault : SettingsFault)
  /-- The settings file is not well formed. -/
  | settingsFile (detail : String)
  | schema (e : SchemaError)
  /-- A file that the command needs could not be read. -/
  | unreadable (path detail : String)
deriving DecidableEq, Repr

namespace Error

/-- What went wrong. -/
def statement : Error → String
  | .api e => "API error: " ++ e.message
  | .importing e => "Import failed: " ++ e.message
  | .settings fault => "Configuration error: " ++ fault.message
  | .settingsFile detail => "Failed to parse config file: " ++ detail
  | .schema e => "Invalid schema: " ++ e.message
  | .unreadable path detail => "Failed to read '" ++ path ++ "': " ++ detail

/-- What to check next. -/
def advice : Error → String
  | .api _ => ". Check the API key and server URL."
  | .importing _ => ""
  | .settings _ => ". Check your config file, environment variables and flags."
  | .settingsFile _ => ". Check the TOML syntax."
  | .schema _ => ". Check the [[columns]] entries in the config file."
  | .unreadable .. => ". Verify the file exists and is readable."

def message (e : Error) : String :=
  e.statement ++ e.advice

/-- The status that the process ends with. -/
def exitStatus : Error → Nat
  | .importing e => if e.isCancellation then 130 else 1
  | .api e => if e.isCancellation then 130 else 1
  | .settings _ | .settingsFile _ | .schema _ => 2
  | .unreadable .. => 1

end Error

end BulkLoad.Command
