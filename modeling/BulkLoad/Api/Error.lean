import BulkLoad.Decimal.Digits

/-!
# Errors of calls

Why a call to the service fails. Only failures of the transport and of the server itself, the
statuses from 500 to 599, are worth another attempt; 404 and 409 mean that something is missing, or
there already, which some callers want to know.
-/

namespace BulkLoad.Api

/-- What can be wrong with the settings of a client. -/
inductive SettingsFault
  | missingKey
  | emptyEndpoint
  | reversedIntervals (initial maximal : Nat)
  | invalidUrl (url detail : String)
  | noHost (url : String)
  /-- A fault that is stated in words. -/
  | stated (text : String)
deriving DecidableEq, Repr

def SettingsFault.message : SettingsFault → String
  | .missingKey => "apikey is required (set it in the config file or TD_API_KEY)"
  | .emptyEndpoint => "endpoint must not be empty"
  | .reversedIntervals initial maximal => "retry_initial_interval_ms (" ++ Decimal.text initial
      ++ ") exceeds retry_max_interval_ms (" ++ Decimal.text maximal ++ ")"
  | .invalidUrl url detail => "invalid base url '" ++ url ++ "': " ++ detail
  | .noHost url => "base url '" ++ url ++ "' has no host"
  | .stated text => text

/-- Why a call fails. -/
inductive Error
  /-- No reply. -/
  | transport (path detail : String)
  /-- A reply with a status from 500 to 599. -/
  | server (path : String) (status : Nat) (body : String)
  /-- A reply with the status 404. -/
  | notFound (path body : String)
  /-- A reply with the status 409. -/
  | conflict (path body : String)
  /-- A reply with any other status that is not a success. -/
  | other (path : String) (status : Nat) (body : String)
  /-- Cancelled while waiting for the next attempt. -/
  | interrupted (path : String)
  /-- A reply that does not say what it should. -/
  | decode (path detail : String)
  /-- A file that was to be sent could not be read. -/
  | file (path detail : String)
  | settings (fault : SettingsFault)
  /-- The proxy of the settings is not one. -/
  | proxy (detail : String)
deriving DecidableEq, Repr

namespace Error

def message : Error → String
  | .transport path detail => "Request to " ++ path ++ " failed: " ++ detail
  | .server path status body =>
    "Server error " ++ Decimal.text status ++ " from " ++ path ++ ": " ++ body
  | .notFound path body => "Not found: " ++ path ++ ": " ++ body
  | .conflict path body => "Conflict: " ++ path ++ ": " ++ body
  | .other path status body =>
    "API error " ++ Decimal.text status ++ " from " ++ path ++ ": " ++ body
  | .interrupted path => "Interrupted while waiting to retry " ++ path
  | .decode path detail => "Failed to decode response from " ++ path ++ ": " ++ detail
  | .file path detail => "Failed to read " ++ path ++ ": " ++ detail
  | .settings fault => "Invalid client configuration: " ++ fault.message
  | .proxy detail => "Failed to build HTTP client: " ++ detail

/-- The error of a reply that is not a success. -/
def ofStatus (path : String) (status : Nat) (body : String) : Error :=
  if status = 404 then .notFound path body
  else if status = 409 then .conflict path body
  else if 500 ≤ status && status ≤ 599 then .server path status body
  else .other path status body

/-- Another attempt may help. -/
def isRetryable : Error → Bool
  | .transport .. | .server .. => true
  | _ => false

def isNotFound : Error → Bool
  | .notFound .. => true
  | _ => false

def isConflict : Error → Bool
  | .conflict .. => true
  | _ => false

/-- A wait was cut short by cancellation. -/
def isCancellation : Error → Bool
  | .interrupted _ => true
  | _ => false

/-- The status of the reply, if there was one. -/
def status? : Error → Option Nat
  | .server _ status _ | .other _ status _ => some status
  | .notFound .. => some 404
  | .conflict .. => some 409
  | _ => none

end Error

/-- Takes "it is there already" for success; the result tells the two apart. -/
def ignoreConflict {α : Type} : Except Error α → Except Error (Option α)
  | .ok a => .ok (some a)
  | .error e => if e.isConflict then .ok none else .error e

/-- Takes "it is not there" for success; the result tells the two apart. -/
def ignoreNotFound {α : Type} : Except Error α → Except Error (Option α)
  | .ok a => .ok (some a)
  | .error e => if e.isNotFound then .ok none else .error e

end BulkLoad.Api
