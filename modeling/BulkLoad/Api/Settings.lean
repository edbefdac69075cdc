import BulkLoad.Api.Library
import BulkLoad.Api.Retry
import BulkLoad.Json.Decode
import BulkLoad.Text.Blank

/-!
# Settings of a client

Where the service is, the key to it, and how patient the client is. Variables of the environment
override the key and the host unless they are blank (`applyVariables`). A client is only made from
settings that `check` accepts.
-/

namespace BulkLoad.Api

/-- The settings of a client. -/
structure Settings where
  key : String := ""
  /-- The host of the service. -/
  endpoint : String := "api.treasuredata.com"
  port : Option Nat := none
  secure : Bool := true
  proxy : Option String := none
  retryLimit : Nat := 20
  /-- Milliseconds before the first retry. -/
  retryInitial : Nat := 1000
  /-- The most milliseconds before a retry. -/
  retryMaximal : Nat := 90000
  connectSeconds : Nat := 10
  readSeconds : Nat := 300
  idleConnections : Nat := 8
deriving DecidableEq, Repr

namespace Settings

def decoder : Json.Decoder Settings :=
  .record {}
    [.may "apikey" .string fun s key => { s with key },
      .may "endpoint" .string fun s endpoint => { s with endpoint },
      .may "port" (.nullable (.natural 0xFFFF)) fun s port => { s with port },
      .may "use_ssl" .bool fun s secure => { s with secure },
      .may "http_proxy" (.nullable .string) fun s proxy => { s with proxy },
      .may "retry_limit" (.natural 0xFFFFFFFF) fun s retryLimit => { s with retryLimit },
      .may "retry_initial_interval_ms" .natural64 fun s retryInitial => { s with retryInitial },
      .may "retry_max_interval_ms" .natural64 fun s retryMaximal => { s with retryMaximal },
      .may "connect_timeout_secs" .natural64 fun s connectSeconds => { s with connectSeconds },
      .may "read_timeout_secs" .natural64 fun s readSeconds => { s with readSeconds },
      .may "max_idle_connections" .natural64 fun s idleConnections => { s with idleConnections }]

def toJson (s : Settings) : Json :=
  .object [("apikey", .string s.key), ("endpoint", .string s.endpoint),
    ("port", .optionalNat s.port), ("use_ssl", .bool s.secure),
    ("http_proxy", .optional .string s.proxy), ("retry_limit", .int s.retryLimit),
    ("retry_initial_interval_ms", .int s.retryInitial),
    ("retry_max_interval_ms", .int s.retryMaximal), ("connect_timeout_secs", .int s.connectSeconds),
    ("read_timeout_secs", .int s.readSeconds), ("max_idle_connections", .int s.idleConnections)]

/-- The settings with the service at a base URL. -/
def atUrl (library : Library) (s : Settings) (url : String) : Except Error Settings :=
  match library.readUrl url with
  | .error detail => .error (.settings (.invalidUrl url detail))
  | .ok parsed =>
    match parsed.host with
    | none => .error (.settings (.noHost url))
    | some host =>
      .ok { s with endpoint := host, port := parsed.port, secure := parsed.scheme = "https" }

/-- The value of a variable, unless it is blank. -/
def nonBlank (lookup : String → Option String) (name : String) : Option String :=
  (lookup name).filter fun value => !Text.isBlankText value

/-- Takes the key and the host from the environment, where they are set. -/
def applyVariables (s : Settings) (lookup : String → Option String) : Settings :=
  { s with
    key := (nonBlank lookup "TD_API_KEY").getD s.key
    endpoint := (nonBlank lookup "TD_API_SERVER").getD s.endpoint }

/-- What is wrong with the settings, if anything is. -/
def fault? (s : Settings) : Option SettingsFault :=
  if Text.isBlankText s.key then some .missingKey
  else if Text.isBlankText s.endpoint then some .emptyEndpoint
  else if s.retryMaximal < s.retryInitial then
    some (.reversedIntervals s.retryInitial s.retryMaximal)
  else none

/-- Accepts settings that nothing is wrong with. -/
def check (s : Settings) : Except Error Unit :=
  match s.fault? with
  | some fault => .error (.settings fault)
  | none => .ok ()

/-- The port in use. -/
def effectivePort (s : Settings) : Nat :=
  s.port.getD (if s.secure then 443 else 80)

/-- Scheme, host and port. -/
def baseUrl (s : Settings) : String :=
  (if s.secure then "https" else "http") ++ "://" ++
    s.endpoint ++ ":" ++ Decimal.text s.effectivePort

def retryPolicy (s : Settings) : RetryPolicy :=
  ⟨s.retryLimit, Span.ofMillis s.retryInitial, Span.ofMillis s.retryMaximal⟩

end Settings

end BulkLoad.Api
