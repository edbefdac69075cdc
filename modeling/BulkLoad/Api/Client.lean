import BulkLoad.Api.Request
import BulkLoad.Api.Session
import BulkLoad.Api.Settings
import BulkLoad.Program
import BulkLoad.Text.Utf8

/-!
# Calls

A client carries the operations of the service out. Each call sends its request until an answer
settles it or the retries are used up, and waits between the attempts (`Client.execute`).
-/

namespace BulkLoad.Api

/-- A call to the service. -/
abbrev Call (α : Type) : Type := Program Answer Error α

/-- What the calls of a client have in common. -/
structure Client where
  baseUrl : String
  key : String
  policy : RetryPolicy
  library : Library

/-- The client with given settings. -/
def Client.ofSettings (library : Library) (s : Settings) : Except Error Client := do
  s.check
  match s.proxy.bind library.proxyFault? with
  | some detail => throw (.proxy detail)
  | none => return ⟨s.baseUrl, s.key, s.retryPolicy, library⟩

namespace Client

/-- What a reply means for the attempt that it answers. -/
def settle (request : Request) : Reply → Except Error (List UInt8)
  | .answered status body =>
    if 200 ≤ status && status ≤ 299 then .ok body
    else .error (.ofStatus request.endpoint.path status (Text.Utf8.decodeLossy body))
  | .dropped detail => .error (.transport request.endpoint.path detail)
  | .unreadable detail =>
    match request.body with
    | .file path => .error (.file path detail)
    | _ => .error (.transport request.endpoint.path detail)

/-- Sends a request, and again after failures that another attempt may mend, `left` times at most.
-/
def executeFrom (policy : RetryPolicy) (request : Request) : (left : Nat) → RetryState →
    Call (List UInt8)
  | left, state => .ask (.send request) fun reply =>
    match settle request reply with
    | .ok body => .done body
    | .error e =>
      if e.isRetryable then
        match state.record policy e with
        | (.giveUp first, _) => .failed first
        | (.retry wait, state) =>
          match left with
          | 0 => .failed e
          | left + 1 => .ask (.wait wait) fun cancelled =>
            if cancelled then .failed (.interrupted request.endpoint.path)
            else executeFrom policy request left state
      else .failed e

/-- Carries a request out. -/
def execute (client : Client) (request : Request) : Call (List UInt8) :=
  executeFrom client.policy request client.policy.limit (RetryState.start client.policy)

/-- Carries a request out whose answer says nothing more. -/
def perform (client : Client) (request : Request) : Call Unit := do
  let _ ← client.execute request

/-- What the body of an answer says. -/
def read {α : Type} (decoder : Json.Decoder α) (body : List UInt8) : Option α :=
  (Text.Utf8.decode? body).bind fun text => (Json.decodeText decoder text).toOption

/-- Reads what an operation gives. -/
def fetch {α : Type} (client : Client) (endpoint : Endpoint) (decoder : Json.Decoder α) :
    Call α := do
  let body ← client.execute ⟨.get, endpoint, .empty⟩
  match read decoder body with
  | some a => return a
  | none => throw (.decode endpoint.path (client.library.bodyFault endpoint body))

/-! ## Databases and tables -/

def databases (client : Client) : Call (List Database) :=
  client.fetch .databaseList Database.listDecoder

def createDatabase (client : Client) (database : String) : Call Unit :=
  client.perform ⟨.post, .databaseCreate database, .empty⟩

def tables (client : Client) (database : String) : Call (List Table) :=
  client.fetch (.tableList database) Table.listDecoder

def createTable (client : Client) (database table : String) : Call Unit :=
  client.perform ⟨.post, .tableCreate database table, .empty⟩

def deleteTable (client : Client) (database table : String) : Call Unit :=
  client.perform ⟨.post, .tableDelete database table, .empty⟩

/-- Gives a table another name; with `overwrite` it takes the place of a table of that name. -/
def renameTable (client : Client) (database source destination : String) (overwrite : Bool) :
    Call Unit :=
  client.perform ⟨.post, .tableRename database source destination,
    .form "overwrite" (if overwrite then "true" else "false")⟩

/-! ## Sessions -/

def createSession (client : Client) (session database table : String) : Call Unit :=
  client.perform ⟨.post, .sessionCreate session database table, .empty⟩

def session (client : Client) (name : String) : Call Session :=
  client.fetch (.sessionShow name) Session.decoder

def freezeSession (client : Client) (session : String) : Call Unit :=
  client.perform ⟨.post, .sessionFreeze session, .empty⟩

/-- Starts the job that reads what was uploaded. -/
def performSession (client : Client) (session : String) (priority : Int) : Call Unit :=
  client.perform ⟨.post, .sessionPerform session, .form "priority" (Decimal.signedText priority)⟩

def commitSession (client : Client) (session : String) : Call Unit :=
  client.perform ⟨.post, .sessionCommit session, .empty⟩

def deleteSession (client : Client) (session : String) : Call Unit :=
  client.perform ⟨.post, .sessionDelete session, .empty⟩

/-- Uploads the file of a part. -/
def uploadPart (client : Client) (session part path : String) : Call Unit :=
  client.perform ⟨.put, .partUpload session part, .file path⟩

end Client

end BulkLoad.Api
