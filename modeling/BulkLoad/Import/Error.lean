import BulkLoad.Api.Error
import BulkLoad.Api.Session
import BulkLoad.Import.Settings
import BulkLoad.Part.File

/-!
# Errors of imports

Why an import fails: a call to the service, the settings, a session that is not in the stage it
should be in, a record, a part file, or the rows themselves.
-/

namespace BulkLoad.Import

/-- Why an import fails. -/
inductive Error
  | api (e : Api.Error)
  | settings (fault : SettingsFault)
  /-- A session was observed in a stage that does not follow from the one it was in. -/
  | wrongStatus (session : String) (current expecting observed : Api.Status)
  | unknownStatus (session : String)
  | pollTimeout (session : String) (expecting : Api.Status) (seconds : Nat)
  | cancelled
  | record (e : Record.EncodeError)
  | invalidRecords (session : String) (count : Nat)
  | part (fault : Part.Fault)
  /-- An upload ended without saying how. -/
  | uploadTask
  | rows (text : String)
deriving DecidableEq, Repr

namespace Error

def message : Error → String
  | .api e => e.message
  | .settings fault => "Configuration error: " ++ fault.message
  | .wrongStatus session current expecting observed => "Session " ++ session ++ " moved to "
      ++ observed.name ++ " while waiting for " ++ current.name ++ " -> " ++ expecting.name
  | .unknownStatus session => "Session " ++ session ++ " is in an unknown state"
  | .pollTimeout session expecting seconds => "Timed out after " ++ Decimal.text seconds
      ++ "s waiting for session " ++ session ++ " to become " ++ expecting.name
  | .cancelled => "Import cancelled"
  | .record e => e.message
  | .invalidRecords session count =>
    "Session " ++ session ++ " reported " ++ Decimal.text count ++ " invalid records"
  | .part fault => fault.message
  | .uploadTask => "Upload task failed"
  | .rows text => "Row source error: " ++ text

/-- The import was cut short rather than refused. -/
def isCancellation : Error → Bool
  | .cancelled => true
  | .api e => e.isCancellation
  | _ => false

end Error

end BulkLoad.Import
