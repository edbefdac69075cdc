import BulkLoad.Calendar.Render
import BulkLoad.Record.TimeKey

/-!
# Settings for writing records

Which column or which generator gives the partition key, how timestamps are written as texts, and
what is different for single columns. A `Formatter` is a pattern and a zone that were found to be
readable.
-/

namespace BulkLoad.Record

/-- What can be wrong with the settings, given the columns of the input. -/
inductive SettingsFault
  | twoTimeSources
  | unknownOption (name : String)
  | reversedRange (low high : Int64)
  | unknownTimeColumn (name : String)
  | invalidPattern (pattern : String)
  | unsupportedZone (zone : String)
  | notATimeColumn (name : String) (type : ColumnType)
  | noTimeColumn
deriving DecidableEq, Repr

def SettingsFault.message : SettingsFault → String
  | .twoTimeSources => "time_column and time_value cannot be used together"
  | .unknownOption name => "column_options refers to unknown column '" ++ name ++ "'"
  | .reversedRange low high => "time_value.from (" ++ Decimal.signedText low.toInt
      ++ ") must not be greater than time_value.to (" ++ Decimal.signedText high.toInt ++ ")"
  | .unknownTimeColumn name => "time_column '" ++ name ++ "' does not exist in the schema"
  | .invalidPattern pattern => "Invalid timestamp format '" ++ pattern ++ "'"
  | .unsupportedZone zone => "Unsupported timezone '" ++ zone ++ "'"
  | .notATimeColumn name type => "Time column '" ++ name ++ "' must be long or timestamp, got "
      ++ type.name
  | .noTimeColumn => "No time column: add a long or timestamp 'time' column, or set time_column or "
      ++ "time_value"

/-- The generator of a time value; a range must not run backwards. -/
def TimeGenerator.ofValue : TimeValue → Except SettingsFault TimeGenerator
  | .fixed value => .ok (.fixed value)
  | .incremental low high =>
    if high < low then .error (.reversedRange low high) else .ok (.cycle low high low)

/-- How instants are written. -/
structure Formatter where
  pattern : Calendar.Pattern
  zone : Calendar.Zone
deriving DecidableEq

namespace Formatter

/-- The pattern of a column without settings. -/
def standardPattern : String := "%Y-%m-%d %H:%M:%S%.3f %z"

/-- The zone of a column without settings. -/
def standardZone : String := "UTC"

/-- The zone that a text names. -/
def readZone (zone : String) : Except SettingsFault Calendar.Zone :=
  match Calendar.Zone.parse? zone with
  | some z => .ok z
  | none => .error (.unsupportedZone zone)

/-- Reads a pattern and a zone, in this order. -/
def ofTexts (pattern zone : String) : Except SettingsFault Formatter :=
  match Calendar.Pattern.parse? pattern with
  | some p => (readZone zone).map (⟨p, ·⟩)
  | none => .error (.invalidPattern pattern)

/-- The text of an instant, if its pattern has a written form. -/
def text? (formatter : Formatter) (t : Calendar.Instant) : Option String :=
  (formatter.pattern.render? (t.inZone formatter.zone)).map String.ofList

/-- The formatter of a column without settings. -/
def standard : Formatter :=
  ⟨(Calendar.Pattern.parse? standardPattern).getD [], .utc⟩

end Formatter

/-- What is different for one column. -/
structure ColumnOption where
  target : Option Target := none
  pattern : Option String := none
  zone : Option String := none
deriving DecidableEq, Repr

def ColumnOption.decoder : Json.Decoder ColumnOption :=
  .record {}
    [.may "type" (.nullable Target.decoder) fun o target => { o with target },
      .may "timestamp_format" (.nullable .string) fun o pattern => { o with pattern },
      .may "timezone" (.nullable .string) fun o zone => { o with zone }]

def ColumnOption.toJson (o : ColumnOption) : Json :=
  .object [("type", .optional (fun target => .string target.name) o.target),
    ("timestamp_format", .optional .string o.pattern), ("timezone", .optional .string o.zone)]

/-- The settings for writing records. -/
structure Settings where
  /-- The column that gives the partition key. -/
  timeColumn : Option String := none
  timeValue : Option TimeValue := none
  unit : TimeUnit := .second
  defaultPattern : String := Formatter.standardPattern
  defaultZone : String := Formatter.standardZone
  /-- Whether `timeColumn` is left alone when a usable time column is there anyway. -/
  preferTime : Bool := false
  /-- The options of single columns, in rising order of their names. -/
  options : List (String × ColumnOption) := []
deriving DecidableEq, Repr

def Settings.decoder : Json.Decoder Settings :=
  .record {}
    [.may "time_column" (.nullable .string) fun s timeColumn => { s with timeColumn },
      .may "time_value" (.nullable TimeValue.decoder) fun s timeValue => { s with timeValue },
      .may "unix_timestamp_unit" TimeUnit.decoder fun s unit => { s with unit },
      .may "default_timestamp_format" .string fun s defaultPattern => { s with defaultPattern },
      .may "default_timezone" .string fun s defaultZone => { s with defaultZone },
      .may "ignore_alternative_time_if_time_exists" .bool fun s preferTime => { s with preferTime },
      .may "column_options" (.map ColumnOption.decoder) fun s options => { s with options }]

def Settings.toJson (s : Settings) : Json :=
  .object [("time_column", .optional .string s.timeColumn),
    ("time_value", .optional TimeValue.toJson s.timeValue),
    ("unix_timestamp_unit", .string s.unit.name),
    ("default_timestamp_format", .string s.defaultPattern),
    ("default_timezone", .string s.defaultZone),
    ("ignore_alternative_time_if_time_exists", .bool s.preferTime),
    ("column_options", .object (s.options.map fun option => (option.1, option.2.toJson)))]

end BulkLoad.Record
