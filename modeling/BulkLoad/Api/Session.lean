import BulkLoad.Json.Decode
import BulkLoad.Json.Text

/-!
# What the service tells

Sessions, databases and tables as the service describes them. A session goes through the stages
uploading, performing, ready, committing and committed; a word for any other stage is read as
`unknown`.
-/

namespace BulkLoad.Api

/-- The stage of a session. -/
inductive Status
  | uploading
  | performing
  | ready
  | committing
  | committed
  | unknown
deriving DecidableEq, Repr

namespace Status

def name : Status → String
  | .uploading => "uploading"
  | .performing => "performing"
  | .ready => "ready"
  | .committing => "committing"
  | .committed => "committed"
  | .unknown => "unknown"

/-- The stages that the service has words for. -/
def named : List (String × Status) :=
  [.uploading, .performing, .ready, .committing, .committed].map fun status => (status.name, status)

def decoder : Json.Decoder Status :=
  .enumeration named (some .unknown)

end Status

/-- A bulk-import session. Counts are there once the session was performed. -/
structure Session where
  name : String
  database : String
  table : String
  status : Status
  frozen : Bool := false
  jobId : Option String := none
  validRecords : Option Nat := none
  errorRecords : Option Nat := none
  validParts : Option Nat := none
  errorParts : Option Nat := none
deriving DecidableEq, Repr

namespace Session

/-- A job is named by a string; any other document that names one is taken as its text. -/
def jobIdOf : Json → Option String
  | .null => none
  | .string s => some s
  | json => some json.text

def decoder : Json.Decoder Session :=
  .record ⟨"", "", "", .unknown, false, none, none, none, none, none⟩
    [.must "name" .string fun s name => { s with name },
      .must "database" .string fun s database => { s with database },
      .must "table" .string fun s table => { s with table },
      .must "status" Status.decoder fun s status => { s with status },
      .may "upload_frozen" .bool fun s frozen => { s with frozen },
      .may "job_id" .document fun s json => { s with jobId := jobIdOf json },
      .may "valid_records" (.nullable .natural64) fun s validRecords => { s with validRecords },
      .may "error_records" (.nullable .natural64) fun s errorRecords => { s with errorRecords },
      .may "valid_parts" (.nullable .natural64) fun s validParts => { s with validParts },
      .may "error_parts" (.nullable .natural64) fun s errorParts => { s with errorParts }]

def toJson (s : Session) : Json :=
  .object [("name", .string s.name), ("database", .string s.database), ("table", .string s.table),
    ("status", .string s.status.name), ("upload_frozen", .bool s.frozen),
    ("job_id", .optional .string s.jobId), ("valid_records", .optionalNat s.validRecords),
    ("error_records", .optionalNat s.errorRecords), ("valid_parts", .optionalNat s.validParts),
    ("error_parts", .optionalNat s.errorParts)]

/-- The number of records that the service could read. -/
def valid (session : Session) : Nat :=
  session.validRecords.getD 0

/-- The number of records that the service refused. -/
def errors (session : Session) : Nat :=
  session.errorRecords.getD 0

end Session

/-- A database. -/
structure Database where
  name : String
  count : Option Nat := none
  permission : Option String := none
deriving DecidableEq, Repr

def Database.decoder : Json.Decoder Database :=
  .record ⟨"", none, none⟩
    [.must "name" .string fun d name => { d with name },
      .may "count" (.nullable .natural64) fun d count => { d with count },
      .may "permission" (.nullable .string) fun d permission => { d with permission }]

def Database.toJson (d : Database) : Json :=
  .object [("name", .string d.name), ("count", .optionalNat d.count),
    ("permission", .optional .string d.permission)]

/-- The reply with all databases. -/
def Database.listDecoder : Json.Decoder (List Database) :=
  .record [] [.must "databases" (.list Database.decoder) fun _ databases => databases]

/-- A table. -/
structure Table where
  name : String
  type : Option String := none
  count : Option Nat := none
deriving DecidableEq, Repr

def Table.decoder : Json.Decoder Table :=
  .record ⟨"", none, none⟩
    [.must "name" .string fun t name => { t with name },
      .may "type" (.nullable .string) fun t type => { t with type },
      .may "count" (.nullable .natural64) fun t count => { t with count }]

def Table.toJson (t : Table) : Json :=
  .object [("name", .string t.name), ("type", .optional .string t.type),
    ("count", .optionalNat t.count)]

/-- The reply with all tables of a database. -/
def Table.listDecoder : Json.Decoder (List Table) :=
  .record [] [.must "tables" (.list Table.decoder) fun _ tables => tables]

end BulkLoad.Api
