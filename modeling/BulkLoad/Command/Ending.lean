import BulkLoad.Command.Run

/-!
# How commands end

A command line that is not understood, a job that goes through, one that fails, and one that breaks
off. The status of the process tells these apart (`Ending.exitStatus`).
-/

namespace BulkLoad.Command

/-- How a command ends. -/
inductive Ending
  /-- The command line was not carried out. -/
  | unused (e : UsageError)
  | finished (lines : List String)
  | failed (e : Error)
  /-- It broke off without saying why. -/
  | crashed
deriving DecidableEq, Repr

/-- The commands, for those who ask for help. -/
def usageLines : List String :=
  ["Usage: tdbulk [OPTIONS] <COMMAND>",
    "",
    "Commands:",
    "  import <INPUT>           Import a file with a JSON object a line",
    "  session show <NAME>      Show a bulk-import session",
    "  session complete <NAME>  Take a session to its last stage",
    "  session delete <NAME>    Delete a session",
    "  databases                List the databases of the account",
    "",
    "Options:",
    "  -v, --verbose            Log more",
    "  -c, --config <FILE>      Read settings from a file",
    "      --server-url <URL>   Talk to the service at this address",
    "  -h, --help               Print help",
    "  -V, --version            Print version"]

/-- What is wrong with a command line. -/
def UsageError.message : UsageError → String
  | .unknownArgument => "unexpected argument"
  | .missingArgument => "a required argument is missing"
  | .invalidValue | .malformedValue => "invalid value"
  | .repeatedArgument => "an argument cannot be used multiple times"
  | .unneededValue => "unexpected value for a switch"
  | .unknownCommand => "unrecognized subcommand"
  | .missingCommand | .nothingGiven => "a subcommand is missing"
  | .help => "help was asked for"
  | .version => "the version was asked for"

namespace Ending

/-- The ending of a job. -/
def ofOutcome : Outcome Error (List String) → Ending
  | .done lines => .finished lines
  | .failed e => .failed e
  | .aborted _ => .crashed

/-- The lines of the output. -/
def output : Ending → List String
  | .unused .version => [Api.programName ++ " " ++ Api.programVersion]
  | .unused .help => usageLines
  | .finished lines => lines
  | _ => []

/-- The lines that say what went wrong. -/
def complaint : Ending → List String
  | .unused .version | .unused .help | .finished _ => []
  | .unused .nothingGiven => usageLines
  | .unused e => ["error: " ++ e.message, "", "For more information, try '--help'."]
  | .failed e => ["Error: " ++ e.message]
  | .crashed => ["the command broke off"]

/-- The status that the process ends with. -/
def exitStatus : Ending → Nat
  | .unused e => e.exitStatus
  | .finished _ => 0
  | .failed e => e.exitStatus
  | .crashed => 101

end Ending

/-- Reads a command line and the settings file that it names, and puts the job together. -/
def Invocation.job (library : Library) (invocation : Invocation) (lookup : String → Option String)
    (read : String → Except String (List UInt8)) : Except Error Job := do
  let settings ← match invocation.settingsFile with
    | some path => FileSettings.ofFile library path (read path)
    | none => pure {}
  Job.ofInvocation library.toLibrary settings lookup invocation

end BulkLoad.Command
