import BulkLoad.Api.Client
import BulkLoad.Part.File

/-!
# Uploads

An upload sends the file of one part and then removes it, however the sending ends. Uploads run
beside the import that starts them.
-/

namespace BulkLoad.Import.Upload

/-- What an upload asks of its surroundings. -/
inductive Question
  | api (q : Api.Question)
  | part (q : Part.Question)

/-- The answers to the questions of an upload. -/
abbrev Answer : Question → Type
  | .api q => Api.Answer q
  | .part q => Part.Answer q

/-- How an upload ends. -/
inductive Ending
  | uploaded
  | refused (e : Api.Error)
  /-- It stopped without saying how. -/
  | crashed
deriving DecidableEq, Repr

/-- The ending of a call. -/
def Ending.ofCall : Except Api.Error Unit → Ending
  | .ok () => .uploaded
  | .error e => .refused e

/-- Sends the file of a part into a session, which may fail. -/
def send (client : Api.Client) (session : String) (file : Part.File) :
    Program Answer Empty (Except Api.Error Unit) :=
  ((client.uploadPart session file.name file.path).embed .api fun _ a => a).attempt

/-- Sends the file of a part into a session. It does not fail, and leaves no file behind. -/
def task (client : Api.Client) (session : String) (file : Part.File) :
    Program Answer Empty Ending := do
  let result ← send client session file
  Program.query (A := Answer) (Question.part (.remove file.path))
  return .ofCall result

end BulkLoad.Import.Upload
