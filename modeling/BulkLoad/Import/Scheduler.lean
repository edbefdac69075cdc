import BulkLoad.Import.Question

/-!
# Uploads beside one another

A scheduler has a bounded number of uploads on their way. When there is no room for another, it
waits for the oldest one, even if a younger one ends first; so the first failure in the order of the
parts is the one that is reported. After a failure all uploads are waited for.
-/

namespace BulkLoad.Import

/-- What was uploaded. -/
structure Summary where
  parts : Nat := 0
  records : Nat := 0
  bytes : Nat := 0
deriving DecidableEq, Repr

/-- The summary with one more part. -/
def Summary.add (summary : Summary) (file : Part.File) : Summary :=
  ⟨summary.parts + 1, summary.records + file.records, summary.bytes + file.size⟩

/-- An upload on its way. -/
structure Started where
  ticket : Nat
  file : Part.File
deriving DecidableEq, Repr

/-- The uploads on their way, the oldest one first, and what is uploaded already. -/
structure Scheduler where
  session : String
  /-- The most uploads at a time. -/
  limit : Nat
  outstanding : List Started := []
  summary : Summary := {}
deriving DecidableEq, Repr

namespace Scheduler

/-- A scheduler without uploads. -/
def start (session : String) (requested : Nat) : Scheduler :=
  { session, limit := clampUploads requested }

/-- Waits for one upload and takes it into the summary. -/
def await {ε : Type} (summary : Summary) (upload : Started) : Work ε (Except Error Summary) := do
  match (← ask (.awaitUpload upload.ticket) : Upload.Ending) with
  | .uploaded => return .ok (summary.add upload.file)
  | .refused e => return .error (.api e)
  | .crashed => return .error .uploadTask

/-- Waits for uploads and goes on after failures; the first failure is reported. -/
def awaitAll {ε : Type} (summary : Summary) : List Started → Work ε (Option Error × Summary)
  | [] => return (none, summary)
  | oldest :: rest => do
    match ← await summary oldest with
    | .ok summary => awaitAll summary rest
    | .error e =>
      let (_, summary) ← awaitAll summary rest
      return (some e, summary)

/-- Waits for all uploads. -/
def drain {ε : Type} (s : Scheduler) : Work ε Scheduler := do
  let (_, summary) ← awaitAll s.summary s.outstanding
  return { s with outstanding := [], summary }

/-- Starts an upload. -/
def launch {ε : Type} (s : Scheduler) (file : Part.File) : Work ε Scheduler := do
  let ticket ← ask (.startUpload s.session file)
  return { s with outstanding := s.outstanding ++ [⟨ticket, file⟩] }

/-- Waits for the oldest uploads until there is room for another, where `outstanding` are those on
their way, and starts it. After a failure the part is removed and all uploads are waited for. -/
def submitAfter {ε : Type} (s : Scheduler) (file : Part.File) (summary : Summary) :
    List Started → Work ε (Except Error Unit × Scheduler)
  | [] => do return (.ok (), ← launch { s with outstanding := [], summary } file)
  | oldest :: rest => do
    if (oldest :: rest).length < s.limit then
      return (.ok (), ← launch { s with outstanding := oldest :: rest, summary } file)
    else
      match ← await summary oldest with
      | .ok summary => submitAfter s file summary rest
      | .error e =>
        removeFile file.path
        return (.error e, ← drain { s with outstanding := rest, summary })

/-- Hands a part over for upload. -/
def submit {ε : Type} (s : Scheduler) (file : Part.File) : Work ε (Except Error Unit × Scheduler) :=
  submitAfter s file s.summary s.outstanding

/-- Waits for all uploads and reports what was uploaded. -/
def finish (s : Scheduler) : Work Error Summary := do
  match ← awaitAll s.summary s.outstanding with
  | (none, summary) => return summary
  | (some e, _) => throw e

end Scheduler

end BulkLoad.Import
