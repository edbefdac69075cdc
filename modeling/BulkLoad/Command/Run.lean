import BulkLoad.Command.Job
import BulkLoad.Command.Lines
import BulkLoad.Logging.Filter

/-!
# Carrying jobs out

A job that goes through gives the lines to print. Besides what an import asks, a job asks for its
input; it does so when it starts, before the service is asked anything.
-/

namespace BulkLoad.Command

/-- The rows to import, as they are in a file. -/
structure Input where
  content : List UInt8
  /-- Why there is more in the file, but it cannot be read. -/
  broken : Option String := none

/-- The rows and faults of an input; `words` says what keeps a line from being a document. -/
def Input.rows (input : Input) (schema : Schema) (words : String → String) :
    List (Except RowFault Row) :=
  let lines := linesOf input.content
  let number := lines.countP (fun line => (Text.Utf8.decode? line).isSome) + 1
  (JsonLines.ofBytes schema words input.content).rows
    ++ input.broken.toList.map fun detail => .error ⟨number, .unreadable detail⟩

/-- A question of a job. -/
inductive Question
  | importing (q : Import.Question)
  | openInput (path : String)

/-- The answers to the questions of a job. -/
abbrev Answer : Question → Type
  | .importing q => Import.Answer q
  | .openInput _ => Except Part.FileFault Input

/-- A program of a job. -/
abbrev Work (α : Type) : Type := Program Answer Error α

/-- Work of an import, as part of a job. -/
def importing {α : Type} (work : Import.Work Import.Error α) : Work α :=
  (work.embed Question.importing fun _ a => a).mapError .importing

/-- A call to the service, as part of a job. -/
def calling {α : Type} (call : Api.Call α) : Work α :=
  (call.embed (fun q => Question.importing (.api q)) fun _ a => a).mapError .api

/-- Opens the input. -/
def openInput (path : String) : Work Input := do
  match ← Program.query (A := Answer) (.openInput path) with
  | .ok input => return input
  | .error fault => throw (.importing (.part (.file fault)))

/-- Carries a job out. -/
def Job.run (library : Library) (job : Job) : Work (List String) :=
  match job.task with
  | .load settings schema path json => do
    let input ← openInput path
    let rows := input.rows schema library.jsonWords
    let report ← importing (Import.run job.driver.client settings schema rows)
    return if json then report.toJson.prettyLines else reportLines report
  | .show name json => do
    let session ← importing (job.driver.look name)
    return if json then session.toJson.prettyLines else sessionLines session
  | .complete name priority => do
    return committedLines (← importing (job.driver.complete name priority))
  | .delete name => do
    return deletedLines name (← importing (job.driver.delete name))
  | .databases json => do
    let databases ← calling job.driver.client.databases
    return if json then (Json.array (databases.map Api.Database.toJson)).prettyLines
      else databaseLines databases

/-- The settings of the log: all is logged when more is to be told, else what is amiss. Variables
override them, unless one of these is not understood. -/
def Invocation.logSettings (invocation : Invocation) (lookup : String → Option String) :
    Logging.Settings :=
  let base : Logging.Settings := { level := if invocation.verbose then .debug else .warn }
  match base.applyVariables lookup with
  | .ok settings => settings
  | .error _ => base

end BulkLoad.Command
