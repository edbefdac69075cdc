import BulkLoad.Import.Feed
import BulkLoad.Import.SessionDriver

/-!
# Imports

An import resolves the writers of its rows, makes sure that the destination is there, uploads the
rows into a session, drives the session to its last stage and, in replace mode, puts the table that
was loaded in the place of the destination. An import that was cut short is taken up again by one
with the same session: what is done already is not done again.
-/

namespace BulkLoad.Import

/-- What an import did. -/
structure Report where
  session : String
  database : String
  table : String
  /-- Whether rows were uploaded; a session that was past its upload takes none. -/
  uploaded : Bool := false
  rowsRead : Nat := 0
  rowsSkipped : Nat := 0
  parts : Nat := 0
  recordsUploaded : Nat := 0
  bytesUploaded : Nat := 0
  validRecords : Nat := 0
  errorRecords : Nat := 0
  jobId : Option String := none
  elapsedMillis : Nat := 0
deriving DecidableEq, Repr

def Report.toJson (r : Report) : Json :=
  .object [("session", .string r.session), ("database", .string r.database),
    ("table", .string r.table), ("uploaded", .bool r.uploaded), ("rows_read", .int r.rowsRead),
    ("rows_skipped", .int r.rowsSkipped), ("parts", .int r.parts),
    ("records_uploaded", .int r.recordsUploaded), ("bytes_uploaded", .int r.bytesUploaded),
    ("valid_records", .int r.validRecords), ("error_records", .int r.errorRecords),
    ("job_id", .optional .string r.jobId), ("elapsed_ms", .int r.elapsedMillis)]

/-- Whether a scratch table is still to be put in the place of the destination: it is unless the
session was committed before and the table is gone. -/
def swapPending (client : Api.Client) (s : Settings) (session loadTable : String) :
    Work Error Bool := do
  let existing ← callingOrMissing (client.session session)
  if existing.any (·.status = .committed) then
    let tables ← calling (client.tables s.database)
    return tables.any (·.name = loadTable)
  else return true

/-- Makes sure that the database and the table to load into are there. The scratch table of a
replacement is created in any case. -/
def prepareDestination (client : Api.Client) (s : Settings) (loadTable : String) :
    Work Error Unit := do
  if s.autoCreate then
    let _ ← callingOrConflict (client.createDatabase s.database)
    let _ ← callingOrConflict (client.createTable s.database loadTable)
  else
    match ← attempting (client.tables s.database) with
    | .error e =>
      if e.isNotFound then throw (.settings (.missingDatabase s.database)) else throw (.api e)
    | .ok tables =>
      match s.mode with
      | .replace =>
        let _ ← callingOrConflict (client.createTable s.database loadTable)
      | .append =>
        if !tables.any (·.name = loadTable) then
          throw (.settings (.missingTable s.database loadTable))

/-- The name of the session. -/
def chooseSession (s : Settings) : Work Error String := do
  match s.session with
  | some name => return name
  | none => return sessionName (← ask .now) (← ask .randomId)

/-- What the names of parts start with. -/
def chooseStem (s : Settings) : Work Error String := do
  match s.partStem with
  | some stem => return stem
  | none => return idText (← ask .randomId)

/-- Uploads rows into a session. -/
def uploadRows (s : Settings) (session : String) (writers : Record.WriterSet)
    (rows : List (Except RowFault Row)) : Work Error (Feed × Summary) := do
  let stem ← chooseStem s
  Feed.upload ⟨s.directory, stem, s.partSize, s.stopOnInvalid⟩
    { scheduler := .start session s.uploads, writers } rows

/-- Uploads rows into a session that takes them, and notes what was uploaded. -/
def uploadInto (s : Settings) (driver : SessionDriver) (loadTable : String)
    (writers : Record.WriterSet) (rows : List (Except RowFault Row)) (report : Report) :
    Work Error Report := do
  if ← driver.start report.session s.database loadTable then
    let (feed, summary) ← uploadRows s report.session writers rows
    return { report with
      uploaded := true
      rowsRead := feed.read
      rowsSkipped := feed.skipped
      parts := summary.parts
      recordsUploaded := summary.records
      bytesUploaded := summary.bytes }
  else return report

/-- Drives a session to its last stage and notes what the service made of the records. -/
def commit (s : Settings) (driver : SessionDriver) (report : Report) : Work Error Report := do
  let session ← driver.complete report.session s.priority
  return { report with
    validRecords := session.valid
    errorRecords := session.errors
    jobId := session.jobId }

/-- Whether a scratch table is to be put in the place of the destination. -/
def swapWanted (client : Api.Client) (s : Settings) (session loadTable : String) :
    Work Error Bool :=
  match s.mode with
  | .replace => swapPending client s session loadTable
  | .append => return false

/-- Makes sure that the table to load into is there, unless it is not loaded into any more. -/
def prepare (client : Api.Client) (s : Settings) (loadTable : String) (swap : Bool) :
    Work Error Unit :=
  if s.mode = .append || swap then prepareDestination client s loadTable else return ()

/-- Puts the scratch table in the place of the destination, if that is wanted. -/
def putInPlace (client : Api.Client) (s : Settings) (loadTable : String) (swap : Bool) :
    Work Error Unit :=
  if swap then calling (client.renameTable s.database loadTable s.table true) else return ()

/-- Deletes the session, if that is wanted. It does not matter whether that succeeds. -/
def cleanUp (s : Settings) (driver : SessionDriver) (session : String) : Work Error Unit :=
  if s.cleanup then do
    let _ : Except Error Bool ← (driver.delete session).attempt
  else return ()

/-- Gets the rows into a session: resolves their writers, makes sure that the table to load into is
there, and uploads them. The result tells as well whether that table is to be put in the place of
the destination. -/
def load (client : Api.Client) (s : Settings) (schema : Schema)
    (rows : List (Except RowFault Row)) : Work Error (Bool × Report) := do
  let writers ← Program.ofExcept
    ((Record.WriterSet.resolve schema s.record).mapError fun fault => .settings (.record fault))
  let session ← chooseSession s
  let loadTable := s.loadTable session
  let swap ← swapWanted client s session loadTable
  prepare client s loadTable swap
  let report ← uploadInto s (SessionDriver.ofSettings client s) loadTable writers rows
    { session, database := s.database, table := s.table }
  return (swap, report)

/-- Makes the table of what is in the session, and tidies up. -/
def conclude (client : Api.Client) (s : Settings) (swap : Bool) (report : Report) :
    Work Error Report := do
  let driver := SessionDriver.ofSettings client s
  let report ← commit s driver report
  putInPlace client s (s.loadTable report.session) swap
  cleanUp s driver report.session
  return report

/-- Imports rows of a schema. -/
def run (client : Api.Client) (s : Settings) (schema : Schema)
    (rows : List (Except RowFault Row)) : Work Error Report := do
  let started ← ask .clock
  let (swap, report) ← load client s schema rows
  let report ← conclude client s swap report
  let ended ← ask .clock
  return { report with elapsedMillis := ((ended : Nat) - (started : Nat)) / 1000000 }

end BulkLoad.Import
