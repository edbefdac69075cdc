import BulkLoad.Json.Text
import BulkLoad.Record.Settings
import BulkLoad.Text.Blank

/-!
# Settings of an import

Where the rows go, in which session, how large the parts are and how patient the import is. In
append mode the rows are loaded into the destination itself, in replace mode into a scratch table
that takes its place afterwards (`loadTable`). An import only runs with settings that `check`
accepts.
-/

namespace BulkLoad.Import

/-- How the destination table is written. -/
inductive Mode
  /-- The rows join those of the table. -/
  | append
  /-- The rows take the place of those of the table. -/
  | replace
deriving DecidableEq, Repr

namespace Mode

def name : Mode → String
  | .append => "append"
  | .replace => "replace"

def named : List (String × Mode) :=
  [.append, .replace].map fun mode => (mode.name, mode)

def decoder : Json.Decoder Mode :=
  .enumeration named none

end Mode

/-- The settings of an import. -/
structure Settings where
  database : String
  table : String
  /-- The session to create or to resume; one with a fresh name unless given. -/
  session : Option String := none
  mode : Mode := .append
  /-- Whether a missing database or table is created. -/
  autoCreate : Bool := true
  priority : Int := 0
  /-- The compressed size at which a part is closed. -/
  partSize : Nat := 16777216
  /-- The number of uploads at a time, before it is clamped. -/
  uploads : Nat := 2
  /-- The directory of part files. -/
  directory : Option String := none
  /-- Whether a bad record ends the import rather than being skipped. -/
  stopOnInvalid : Bool := false
  /-- Milliseconds between two looks at a session. -/
  pollInterval : Nat := 3000
  /-- Seconds after which the wait for a session is given up. -/
  pollTimeout : Nat := 21600
  /-- Whether a committed session is deleted. -/
  cleanup : Bool := true
  /-- What the names of parts start with. -/
  partStem : Option String := none
  record : Record.Settings := {}
deriving DecidableEq, Repr

namespace Settings

def decoder : Json.Decoder Settings :=
  .record { database := "", table := "" }
    [.must "database" .string fun s database => { s with database },
      .must "table" .string fun s table => { s with table },
      .may "session" (.nullable .string) fun s session => { s with session },
      .may "mode" Mode.decoder fun s mode => { s with mode },
      .may "auto_create_table" .bool fun s autoCreate => { s with autoCreate },
      .may "priority" (.integer (-0x80000000) 0x7FFFFFFF) fun s priority => { s with priority },
      .may "part_size_bytes" .natural64 fun s partSize => { s with partSize },
      .may "upload_concurrency" .natural64 fun s uploads => { s with uploads },
      .may "tmpdir" (.nullable .string) fun s directory => { s with directory },
      .may "stop_on_invalid_record" .bool fun s stopOnInvalid => { s with stopOnInvalid },
      .may "poll_interval_ms" .natural64 fun s pollInterval => { s with pollInterval },
      .may "poll_timeout_secs" .natural64 fun s pollTimeout => { s with pollTimeout },
      .may "cleanup_session" .bool fun s cleanup => { s with cleanup },
      .may "part_name_prefix" (.nullable .string) fun s partStem => { s with partStem },
      .may "encoder" Record.Settings.decoder fun s record => { s with record }]

def toJson (s : Settings) : Json :=
  .object [("database", .string s.database), ("table", .string s.table),
    ("session", .optional .string s.session), ("mode", .string s.mode.name),
    ("auto_create_table", .bool s.autoCreate), ("priority", .int s.priority),
    ("part_size_bytes", .int s.partSize), ("upload_concurrency", .int s.uploads),
    ("tmpdir", .optional .string s.directory), ("stop_on_invalid_record", .bool s.stopOnInvalid),
    ("poll_interval_ms", .int s.pollInterval), ("poll_timeout_secs", .int s.pollTimeout),
    ("cleanup_session", .bool s.cleanup), ("part_name_prefix", .optional .string s.partStem),
    ("encoder", s.record.toJson)]

end Settings

/-- What can be wrong with the settings of an import, taken by themselves or together with the
columns of the input or the tables of the service. -/
inductive SettingsFault
  | emptyDatabase
  | emptyTable
  | emptySession
  | priority (value : Int)
  | zeroPartSize
  | zeroPollInterval
  | record (fault : Record.SettingsFault)
  | missingDatabase (database : String)
  | missingTable (database table : String)
  | foreignSession (session database table ownDatabase ownTable : String)
  /-- A fault that is stated in words. -/
  | stated (text : String)
deriving DecidableEq, Repr

/-- The bounds of a priority. -/
def priorityRange : String := "priority must be between -2 and 2, got "

def SettingsFault.message : SettingsFault → String
  | .emptyDatabase => "database must not be empty"
  | .emptyTable => "table must not be empty"
  | .emptySession => "session must not be empty"
  | .priority value => priorityRange ++ Decimal.signedText value
  | .zeroPartSize => "part_size_bytes must be greater than 0"
  | .zeroPollInterval => "poll_interval_ms must be greater than 0"
  | .record fault => fault.message
  | .missingDatabase database =>
    "Database '" ++ database ++ "' does not exist and auto_create_table is disabled"
  | .missingTable database table =>
    "Table '" ++ database ++ "." ++ table ++ "' does not exist and auto_create_table is disabled"
  | .foreignSession session database table ownDatabase ownTable =>
    "Session " ++ session ++ " belongs to " ++ ownDatabase ++ "." ++ ownTable ++ ", not "
      ++ database ++ "." ++ table
  | .stated text => text

/-- Whether a job may have a priority. -/
def isPriority (value : Int) : Bool :=
  -2 ≤ value && value ≤ 2

/-- A number of uploads at a time: at least one, at most eight. -/
def clampUploads (requested : Nat) : Nat :=
  max 1 (min 8 requested)

namespace Settings

/-- What is wrong with the settings, if anything is. -/
def fault? (s : Settings) : Option SettingsFault :=
  if Text.isBlankText s.database then some .emptyDatabase
  else if Text.isBlankText s.table then some .emptyTable
  else if s.session.any Text.isBlankText then some .emptySession
  else if !isPriority s.priority then some (.priority s.priority)
  else if s.partSize = 0 then some .zeroPartSize
  else if s.pollInterval = 0 then some .zeroPollInterval
  else none

/-- Accepts settings that nothing is wrong with. -/
def check (s : Settings) : Except SettingsFault Unit :=
  match s.fault? with
  | some fault => .error fault
  | none => .ok ()

/-- The most uploads at a time. -/
def uploadLimit (s : Settings) : Nat :=
  clampUploads s.uploads

/-- The table that rows are loaded into. -/
def loadTable (s : Settings) (session : String) : String :=
  match s.mode with
  | .append => s.table
  | .replace => s.table ++ "_" ++ session

end Settings

/-! ## Fresh names -/

/-- Eight hexadecimal digits. -/
def idText (id : UInt32) : String :=
  String.ofList ((List.range 8).reverse.map fun k =>
    Text.Hex.digit (id.toNat / Nat.pow 16 k % 16))

/-- How the moment stands in the name of a session. -/
def stampPattern : Calendar.Pattern :=
  (Calendar.Pattern.parse? "%Y%m%d_%H%M%S").getD []

/-- The name of a session that was not named: the moment it is created, and a random number. -/
def sessionName (now : Calendar.Instant) (id : UInt32) : String :=
  "tdbulk_" ++ ((stampPattern.render? (now.inZone .utc)).map String.ofList).getD "" ++
    "_" ++ idText id

end BulkLoad.Import
