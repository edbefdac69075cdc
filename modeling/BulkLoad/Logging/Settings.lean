import BulkLoad.Json.Decode
import BulkLoad.Text.Blank

/-!
# Settings of the log

From which level on events are logged, where to and how. Variables of the environment override the
settings (`Settings.applyVariables`); a word that is none of the known ones is refused. Words may
have blanks around them and capitals in them.
-/

namespace BulkLoad.Logging

/-- How serious an event is. -/
inductive Level
  | trace
  | debug
  | info
  | warn
  | error
deriving DecidableEq, Repr

/-- Where the log goes. -/
inductive Output
  /-- The error stream. -/
  | console
  | file
  | both
deriving DecidableEq, Repr

/-- How an event is written. -/
inductive Format
  | text
  | json
deriving DecidableEq, Repr

namespace Level

def name : Level → String
  | .trace => "trace"
  | .debug => "debug"
  | .info => "info"
  | .warn => "warn"
  | .error => "error"

/-- The level as it stands in a line of the log. -/
def label : Level → String
  | .trace => "TRACE"
  | .debug => "DEBUG"
  | .info => "INFO"
  | .warn => "WARN"
  | .error => "ERROR"

def named : List (String × Level) :=
  [.trace, .debug, .info, .warn, .error].map fun level => (level.name, level)

def decoder : Json.Decoder Level :=
  .enumeration named none

end Level

namespace Output

def name : Output → String
  | .console => "console"
  | .file => "file"
  | .both => "both"

def named : List (String × Output) :=
  [.console, .file, .both].map fun output => (output.name, output)

def decoder : Json.Decoder Output :=
  .enumeration named none

/-- The log goes to a file, perhaps among others. -/
def reachesFile (output : Output) : Bool :=
  output ≠ .console

end Output

namespace Format

def name : Format → String
  | .text => "text"
  | .json => "json"

def named : List (String × Format) :=
  [.text, .json].map fun format => (format.name, format)

def decoder : Json.Decoder Format :=
  .enumeration named none

end Format

/-- The settings that have one of a few words as their value. -/
inductive Setting
  | level
  | output
  | format
deriving DecidableEq, Repr

def Setting.name : Setting → String
  | .level => "level"
  | .output => "output"
  | .format => "format"

/-- Why the log cannot be set up. -/
inductive Error
  | invalidWord (setting : Setting) (word : String)
  | directory (path detail : String)
  | filter (directive : String)
deriving DecidableEq, Repr

def Error.message : Error → String
  | .invalidWord setting word => "Invalid log " ++ setting.name ++ ": '" ++ word ++ "'"
  | .directory path detail => "Failed to create log directory " ++ path ++ ": " ++ detail
  | .filter directive => "Failed to initialize logging: bad filter '" ++ directive ++ "'"

/-- The value that a word names. -/
def ofWord {α : Type} (setting : Setting) (words : List (String × α)) (word : String) :
    Except Error α :=
  match words.lookup (String.ofList ((Text.trimChars word.toList).map Char.toLower)) with
  | some a => .ok a
  | none => .error (.invalidWord setting word)

def Level.ofWord : String → Except Error Level :=
  Logging.ofWord .level (Level.named ++ [("warning", .warn)])

def Output.ofWord : String → Except Error Output :=
  Logging.ofWord .output (Output.named ++ [("stderr", .console)])

def Format.ofWord : String → Except Error Format :=
  Logging.ofWord .format Format.named

/-- The settings of the log. -/
structure Settings where
  level : Level := .info
  output : Output := .console
  format : Format := .text
  directory : String := "./logs"
  /-- What the names of log files start with. -/
  fileStem : String := "tdbulk"
  /-- Further filter directives, with commas between them. -/
  directives : Option String := none
  withLocation : Bool := false
  withTarget : Bool := true
deriving DecidableEq, Repr

namespace Settings

def decoder : Json.Decoder Settings :=
  .record {}
    [.must "level" Level.decoder fun s level => { s with level },
      .must "output" Output.decoder fun s output => { s with output },
      .must "format" Format.decoder fun s format => { s with format },
      .must "log_dir" .string fun s directory => { s with directory },
      .must "log_file_prefix" .string fun s fileStem => { s with fileStem },
      .may "filter_directives" (.nullable .string) fun s directives => { s with directives },
      .must "include_location" .bool fun s withLocation => { s with withLocation },
      .must "include_targets" .bool fun s withTarget => { s with withTarget }]

def toJson (s : Settings) : Json :=
  .object [("level", .string s.level.name), ("output", .string s.output.name),
    ("format", .string s.format.name), ("log_dir", .string s.directory),
    ("log_file_prefix", .string s.fileStem), ("filter_directives", .optional .string s.directives),
    ("include_location", .bool s.withLocation), ("include_targets", .bool s.withTarget)]

/-- Reads a variable, if it is set. -/
def reading {α : Type} (lookup : String → Option String) (name : String)
    (read : String → Except Error α) (fallback : α) : Except Error α :=
  match lookup name with
  | some value => read value
  | none => .ok fallback

/-- Takes the settings that are in the environment from there. -/
def applyVariables (s : Settings) (lookup : String → Option String) : Except Error Settings := do
  let level ← reading lookup "TDBULK_LOG_LEVEL" Level.ofWord s.level
  let output ← reading lookup "TDBULK_LOG_OUTPUT" Output.ofWord s.output
  let format ← reading lookup "TDBULK_LOG_FORMAT" Format.ofWord s.format
  return { s with
    level, output, format
    directory := (lookup "TDBULK_LOG_DIR").getD s.directory
    directives := (lookup "TDBULK_LOG_FILTER").or s.directives }

end Settings

end BulkLoad.Logging
