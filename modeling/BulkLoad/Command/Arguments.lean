import BulkLoad.Decimal.Integer
import BulkLoad.Import.Settings

/-!
# Command lines

A command line names a command and gives it switches and at most one operand. Commands nest: a
command that has commands of its own is followed by one of them. Words are read from left to right
and the first thing that is wrong counts; a value is judged when the switch after it is read, or at
the end. Switches that concern every command may stand at any level; the innermost one counts, and
variables of the environment stand in for two of them.
-/

namespace BulkLoad.Command

/-- Why a command line is not carried out. -/
inductive UsageError
  | unknownArgument
  | missingArgument
  /-- A value that is empty or none of the possible ones. -/
  | invalidValue
  /-- A value that cannot be read. -/
  | malformedValue
  | repeatedArgument
  /-- A value for a switch that takes none. -/
  | unneededValue
  | unknownCommand
  | missingCommand
  /-- Nothing is given where a command should be. -/
  | nothingGiven
  /-- Help was asked for. -/
  | help
  /-- The version was asked for. -/
  | version
deriving DecidableEq, Repr

/-- The status that the process ends with. -/
def UsageError.exitStatus : UsageError → Nat
  | .help | .version => 0
  | _ => 2

/-! ## Switches -/

/-- What a command line may say besides the names of commands. -/
inductive Switch
  | help
  | version
  | verbose
  | settingsFile
  | serverUrl
  | database
  | table
  | session
  | mode
  | priority
  | parallel
  | stopOnInvalid
  | json
  /-- The file of an import. -/
  | input
  /-- The session that a command is about. -/
  | name
deriving DecidableEq, Repr

/-- The kind of value that a switch takes. -/
inductive ValueKind
  | none
  | text
  | path
  | mode
  | int32
  | count
deriving DecidableEq, Repr

namespace Switch

/-- The word after two hyphens. Operands have none. -/
def long? : Switch → Option String
  | .help => some "help"
  | .version => some "version"
  | .verbose => some "verbose"
  | .settingsFile => some "config"
  | .serverUrl => some "server-url"
  | .database => some "database"
  | .table => some "table"
  | .session => some "session"
  | .mode => some "mode"
  | .priority => some "priority"
  | .parallel => some "parallel"
  | .stopOnInvalid => some "stop-on-invalid-record"
  | .json => some "json"
  | .input | .name => none

/-- The letter after one hyphen. -/
def short? : Switch → Option Char
  | .help => some 'h'
  | .version => some 'V'
  | .verbose => some 'v'
  | .settingsFile => some 'c'
  | .database => some 'd'
  | .table => some 't'
  | .session => some 's'
  | _ => none

def kind : Switch → ValueKind
  | .help | .version | .verbose | .stopOnInvalid | .json => .none
  | .settingsFile | .input => .path
  | .serverUrl | .database | .table | .session | .name => .text
  | .mode => .mode
  | .priority => .int32
  | .parallel => .count

def takesValue (switch : Switch) : Bool :=
  switch.kind ≠ .none

/-- The word after the switch is its value even if it starts with a hyphen. -/
def takesHyphen (switch : Switch) : Bool :=
  switch = .priority

/-- The variable of the environment that stands in for the switch. -/
def environmentName? : Switch → Option String
  | .settingsFile => some "TDBULK_CONFIG"
  | .serverUrl => some "TDBULK_SERVER_URL"
  | _ => none

end Switch

/-- The value of a priority. -/
def readPriority (s : String) : Option Int :=
  (Decimal.readInteger (-0x80000000) 0x7FFFFFFF s.toList).toOption

/-- The value of a number of uploads. -/
def readCount (s : String) : Option Nat :=
  ((Decimal.readInteger 0 0xFFFFFFFFFFFFFFFF s.toList).toOption).map Int.toNat

/-- The value of a mode. -/
def readMode (s : String) : Option Import.Mode :=
  Import.Mode.named.lookup s

/-- What is wrong with a value, if anything is. -/
def ValueKind.fault? (kind : ValueKind) (s : String) : Option UsageError :=
  match kind with
  | .none | .text => .none
  | .path => if s.isEmpty then some .invalidValue else .none
  | .mode => if (readMode s).isSome then .none else some .invalidValue
  | .int32 => if (readPriority s).isSome then .none else some .malformedValue
  | .count => if (readCount s).isSome then .none else some .malformedValue

/-! ## Commands -/

/-- A place in the tree of commands. -/
inductive Level
  | root
  | load
  | session
  | show
  | complete
  | delete
  | databases
deriving DecidableEq, Repr

namespace Level

/-- The commands that may follow. -/
def commands : Level → List (String × Level)
  | .root => [("import", .load), ("session", .session), ("databases", .databases)]
  | .session => [("show", .show), ("complete", .complete), ("delete", .delete)]
  | _ => []

/-- The switches of the command itself. -/
def ownSwitches : Level → List Switch
  | .root => [.version]
  | .load => [.database, .table, .session, .mode, .priority, .parallel, .stopOnInvalid, .json]
  | .show | .databases => [.json]
  | .complete => [.priority]
  | .session | .delete => []

/-- The switches that may stand at the level. -/
def switches (level : Level) : List Switch :=
  [.help, .verbose, .settingsFile, .serverUrl] ++ level.ownSwitches

/-- The operand, which must be given. -/
def operand? : Level → Option Switch
  | .load => some .input
  | .show | .complete | .delete => some .name
  | _ => none

/-- A command must follow. -/
def needsCommand (level : Level) : Bool :=
  !level.commands.isEmpty

end Level

/-! ## Reading -/

/-- What was read at a level so far. -/
structure Progress where
  /-- The switch whose value is not judged yet, and the value if it was there. -/
  pending : Option (Switch × Option String) := none
  found : List (Switch × String) := []
  operandSeen : Bool := false
  /-- Two hyphens were seen: all that follows are operands. -/
  trailing : Bool := false

namespace Progress

def has (progress : Progress) (switch : Switch) : Bool :=
  (progress.found.lookup switch).isSome

/-- Takes a switch with a value into account. -/
def add (progress : Progress) (switch : Switch) (value : String) : Except UsageError Progress :=
  if progress.has switch then .error .repeatedArgument
  else match switch.kind.fault? value with
    | some e => .error e
    | none => .ok { progress with found := (switch, value) :: progress.found }

/-- Judges the pending switch. -/
def settle (progress : Progress) : Except UsageError Progress :=
  match progress.pending with
  | none => .ok progress
  | some (_, none) => .error .invalidValue
  | some (switch, some value) => { progress with pending := none }.add switch value

/-- The switch that the next word is the value of. -/
def awaiting? (progress : Progress) : Option Switch :=
  match progress.pending with
  | some (switch, none) => if progress.trailing then none else some switch
  | _ => none

/-- Takes a switch without a value into account. -/
def addFlag (progress : Progress) (switch : Switch) : Except UsageError Progress := do
  let progress ← progress.settle
  match switch with
  | .help => throw .help
  | .version => throw .version
  | switch => progress.add switch ""

/-- Takes a switch that takes a value into account, where the value may be in the same word. -/
def addSwitch (progress : Progress) (switch : Switch) (attached : Option String) :
    Except UsageError Progress := do
  let progress ← progress.settle
  match attached with
  | some value => progress.add switch value
  | none => return { progress with pending := some (switch, none) }

end Progress

/-- Reads a word that starts with two hyphens. -/
def readLong (level : Level) (progress : Progress) (word : List Char) :
    Except UsageError Progress :=
  let name := String.ofList (word.takeWhile (· ≠ '='))
  let attached := match word.dropWhile (· ≠ '=') with
    | [] => none
    | _ :: value => some (String.ofList value)
  match level.switches.find? (·.long? = some name) with
  | none => .error .unknownArgument
  | some switch =>
    if switch.takesValue then progress.addSwitch switch attached
    else if attached.isSome then .error .unneededValue
    else progress.addFlag switch

/-- Reads the letters of a word that starts with one hyphen. What follows the letter of a switch
with a value is the value, less an equals sign. -/
def readShort (level : Level) (progress : Progress) : List Char → Except UsageError Progress
  | [] => .ok progress
  | c :: rest =>
    match level.switches.find? (·.short? = some c) with
    | none => .error .unknownArgument
    | some switch =>
      if switch.takesValue then
        progress.addSwitch switch <| match rest with
          | [] => none
          | '=' :: value => some (String.ofList value)
          | value => some (String.ofList value)
      else do readShort level (← progress.addFlag switch) rest

/-- Reads an operand. -/
def readOperand (level : Level) (progress : Progress) (word : String) :
    Except UsageError Progress := do
  match level.operand? with
  | some switch =>
    if progress.operandSeen then throw .unknownArgument
    let progress ← progress.settle
    return { progress with pending := some (switch, some word), operandSeen := true }
  | none =>
    if progress.trailing &&
        ((level.commands.lookup word).isSome || (level.needsCommand && word = "help"))
    then throw .unknownArgument
    else if level.needsCommand then throw .unknownCommand
    else throw .unknownArgument

/-- Takes variables of the environment for switches that were not given. -/
def addVariables (lookup : String → Option String) (progress : Progress) :
    List Switch → Except UsageError Progress
  | [] => .ok progress
  | switch :: rest =>
    match switch.environmentName?.bind lookup with
    | some value =>
      if progress.has switch then addVariables lookup progress rest
      else do addVariables lookup (← progress.add switch value) rest
    | none => addVariables lookup progress rest

/-- Judges what was given at a level; `followed` says whether a command of its own follows. -/
def closeLevel (lookup : String → Option String) (level : Level) (progress : Progress)
    (followed : Bool) : Except UsageError (List (Switch × String)) := do
  let given ← progress.settle
  let complete ← addVariables lookup given level.switches
  if level.needsCommand && !followed then
    throw (if complete.found.isEmpty then .nothingGiven else .missingCommand)
  if (level.operand?.any fun switch => !complete.has switch) then throw .missingArgument
  return given.found

/-- Whether words name a command below a level, one level after the other. -/
def namesCommand : Level → List String → Bool
  | _, [] => true
  | level, word :: rest =>
    match level.commands.lookup word with
    | some inner => namesCommand inner rest
    | none => level.needsCommand && word = "help" && rest.isEmpty

/-- One level of a command line, and what was given there. -/
abbrev Given : Type := Level × List (Switch × String)

/-- Reads the words of a level and of the levels below it. -/
def readWords (lookup : String → Option String) (level : Level) (progress : Progress) :
    List String → Except UsageError (List Given)
  | [] => do return [(level, ← closeLevel lookup level progress false)]
  | word :: rest =>
    let continueWith (result : Except UsageError Progress) : Except UsageError (List Given) := do
      readWords lookup level (← result) rest
    if progress.trailing then continueWith (readOperand level progress word)
    else match progress.awaiting? with
      | some switch =>
        let asValue := continueWith (.ok { progress with pending := some (switch, some word) })
        if switch.takesHyphen then asValue
        else match word.toList with
          | ['-', '-'] => continueWith (.ok { progress with trailing := true })
          | '-' :: '-' :: letters => continueWith (readLong level progress letters)
          | '-' :: c :: letters => continueWith (readShort level progress (c :: letters))
          | _ => asValue
      | none =>
        match level.commands.lookup word with
        | some inner => do
          let below ← readWords lookup inner {} rest
          return (level, ← closeLevel lookup level progress true) :: below
        | none =>
          if level.needsCommand && word = "help" then
            .error (if namesCommand level rest then .help else .unknownCommand)
          else match word.toList with
            | ['-', '-'] => continueWith (.ok { progress with trailing := true })
            | '-' :: '-' :: letters => continueWith (readLong level progress letters)
            | '-' :: c :: letters => continueWith (readShort level progress (c :: letters))
            | _ => continueWith (readOperand level progress word)

/-! ## Invocations -/

/-- What an import is told on the command line. -/
structure ImportArguments where
  input : String
  database : Option String := none
  table : Option String := none
  session : Option String := none
  mode : Option Import.Mode := none
  priority : Option Int := none
  parallel : Option Nat := none
  stopOnInvalid : Bool := false
  json : Bool := false
deriving DecidableEq, Repr

/-- What is to be done. -/
inductive Action
  | load (arguments : ImportArguments)
  | show (session : String) (json : Bool)
  | complete (session : String) (priority : Int)
  | delete (session : String)
  | databases (json : Bool)
deriving DecidableEq, Repr

/-- A command line that was understood. -/
structure Invocation where
  verbose : Bool
  settingsFile : Option String
  serverUrl : Option String
  action : Action
deriving DecidableEq, Repr

/-- The action of the innermost level. -/
def actionOf (level : Level) (found : List (Switch × String)) : Option Action :=
  let given (switch : Switch) : Bool := (found.lookup switch).isSome
  match level with
  | .load => (found.lookup .input).map fun input => .load {
      input
      database := found.lookup .database
      table := found.lookup .table
      session := found.lookup .session
      mode := (found.lookup .mode).bind readMode
      priority := (found.lookup .priority).bind readPriority
      parallel := (found.lookup .parallel).bind readCount
      stopOnInvalid := given .stopOnInvalid
      json := given .json }
  | .show => (found.lookup .name).map (.show · (given .json))
  | .complete => (found.lookup .name).map fun name =>
      .complete name (((found.lookup .priority).bind readPriority).getD 0)
  | .delete => (found.lookup .name).map .delete
  | .databases => some (.databases (given .json))
  | .root | .session => none

/-- The value of a switch that concerns every command: that of the innermost level where it was
given, else that of its variable. -/
def generalValue (lookup : String → Option String) (levels : List Given) (switch : Switch) :
    Option String :=
  (levels.reverse.findSome? fun given => given.2.lookup switch).or
    (switch.environmentName?.bind lookup)

/-- Reads a command line. -/
def Invocation.ofWords (lookup : String → Option String) (words : List String) :
    Except UsageError Invocation := do
  let levels ← readWords lookup .root {} words
  match levels.getLast?.bind fun given => actionOf given.1 given.2 with
  | some action =>
    return {
      verbose := levels.any fun given => (given.2.lookup .verbose).isSome
      settingsFile := generalValue lookup levels .settingsFile
      serverUrl := generalValue lookup levels .serverUrl
      action }
  | none => throw .missingCommand

end BulkLoad.Command
