import BulkLoad.Import.Error
import BulkLoad.Import.Upload

/-!
# What an import asks

An import calls the service, works on part files, starts uploads and waits for them, and looks at
the clock. The client and the import may be cancelled by different signals: a wait of the client
looks at the one, a pause of the import at the other.
-/

namespace BulkLoad.Import

/-- A question of an import. -/
inductive Question
  | api (q : Api.Question)
  | part (q : Part.Question)
  /-- Starts the upload of a part; the answer is a number to ask for its ending with. -/
  | startUpload (session : String) (file : Part.File)
  /-- Waits for the ending of an upload. -/
  | awaitUpload (ticket : Nat)
  /-- Waits; the answer says whether the import is cancelled. -/
  | pause (span : Api.Span)
  /-- Asks whether the import is cancelled. -/
  | cancelled
  /-- Asks for the nanoseconds since some moment. -/
  | clock
  /-- Asks for the moment. -/
  | now
  /-- Asks for a random number. -/
  | randomId

/-- The answers to the questions of an import. -/
abbrev Answer : Question → Type
  | .api q => Api.Answer q
  | .part q => Part.Answer q
  | .startUpload .. => Nat
  | .awaitUpload _ => Upload.Ending
  | .pause _ => Bool
  | .cancelled => Bool
  | .clock => Nat
  | .now => Calendar.Instant
  | .randomId => UInt32

/-- A program of an import. -/
abbrev Work (ε α : Type) : Type := Program Answer ε α

/-- Asks one question. -/
def ask {ε : Type} (q : Question) : Work ε (Answer q) :=
  Program.query q

/-- A call to the service, as part of an import. -/
def calling {α : Type} (call : Api.Call α) : Work Error α :=
  (call.embed Question.api fun _ a => a).mapError .api

/-- A call that may fail. -/
def attempting {ε α : Type} (call : Api.Call α) : Work ε (Except Api.Error α) :=
  (call.embed Question.api fun _ a => a).attempt

/-- Work on a part, as part of an import. -/
def onPart {α : Type} (work : Part.Work α) : Work Part.Fault α :=
  work.embed Question.part fun _ a => a

/-- Removes the file of a part. -/
def removeFile {ε : Type} (path : String) : Work ε Unit :=
  ask (.part (.remove path))

/-- A call that takes "it is there already" for success; the result tells the two apart. -/
def callingOrConflict {α : Type} (call : Api.Call α) : Work Error (Option α) := do
  Program.ofExcept ((Api.ignoreConflict (← attempting call)).mapError .api)

/-- A call that takes "it is not there" for success; the result tells the two apart. -/
def callingOrMissing {α : Type} (call : Api.Call α) : Work Error (Option α) := do
  Program.ofExcept ((Api.ignoreNotFound (← attempting call)).mapError .api)

end BulkLoad.Import
