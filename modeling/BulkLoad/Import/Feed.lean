import BulkLoad.Import.Scheduler
import BulkLoad.Record.Writer
import BulkLoad.Rows.JsonLines

/-!
# Feeding rows into parts

Rows are written as records into an open part, which is closed and handed over for upload as soon as
its size reaches the bound of the settings. A row that cannot be written is skipped, unless the
settings say that it ends the import. When something fails, the open part is removed and the uploads
on their way are waited for.
-/

namespace BulkLoad.Import

/-- How far the rows are fed in. -/
structure Feed where
  scheduler : Scheduler
  writers : Record.WriterSet
  /-- The part that is open. -/
  part : Option Part.Builder := none
  /-- The number of the part opened last. -/
  number : Nat := 0
  read : Nat := 0
  skipped : Nat := 0

/-- A failure, and how far the rows were fed in then. -/
structure Setback where
  error : Error
  feed : Feed

namespace Feed

/-- What the parts of an import have in common. -/
structure Plan where
  directory : Option String
  stem : String
  partSize : Nat
  stopOnInvalid : Bool
deriving DecidableEq, Repr

/-- Fails, without an open part. -/
def failPart {α : Type} (feed : Feed) (fault : Part.Fault) : Work Setback α :=
  throw ⟨.part fault, { feed with part := none }⟩

/-- Closes a part and hands it over for upload. -/
def handOver (feed : Feed) (part : Part.Builder) : Work Setback Feed := do
  match ← (onPart part.finish).attempt with
  | .error fault => feed.failPart fault
  | .ok none => return { feed with part := none }
  | .ok (some file) =>
    match ← feed.scheduler.submit file with
    | (.ok (), scheduler) => return { feed with part := none, scheduler }
    | (.error e, scheduler) => throw ⟨e, { feed with part := none, scheduler }⟩

/-- The part that is open, or a new one. -/
def openPart (plan : Plan) (feed : Feed) : Work Setback (Part.Builder × Feed) := do
  match feed.part with
  | some part => return (part, feed)
  | none =>
    let number := feed.number + 1
    match ← (onPart (Part.create plan.directory plan.stem number)).attempt with
    | .ok part => return (part, { feed with number })
    | .error fault => feed.failPart fault

/-- Puts a record into a part. -/
def putRecord (plan : Plan) (feed : Feed) (record : Packed) : Work Setback Feed := do
  let (part, feed) ← openPart plan feed
  match ← (onPart (part.add record)).attempt with
  | .error fault => feed.failPart fault
  | .ok part =>
    if plan.partSize ≤ part.size then feed.handOver part
    else return { feed with part := some part }

/-- Removes the open part. -/
def discard {ε : Type} (feed : Feed) : Work ε Unit :=
  match feed.part with
  | some part => removeFile part.path
  | none => return ()

/-- Writes a row. -/
def takeRow (plan : Plan) (feed : Feed) (row : Row) : Work Setback Feed := do
  let feed := { feed with read := feed.read + 1 }
  match feed.writers.write row with
  | .error .unwritable =>
    feed.discard
    .aborted .unwritable
  | .error (.refused e) =>
    if plan.stopOnInvalid then throw ⟨.record e, feed⟩
    else return { feed with skipped := feed.skipped + 1 }
  | .ok (record, writers) => putRecord plan { feed with writers } record

/-- Feeds rows in and closes the last part. -/
def takeRows (plan : Plan) (feed : Feed) : List (Except RowFault Row) → Work Setback Feed
  | [] =>
    match feed.part with
    | some part => feed.handOver part
    | none => return feed
  | .error fault :: _ => throw ⟨.rows fault.message, feed⟩
  | .ok row :: rest => do
    let cancelled : Bool ← ask .cancelled
    Program.require (!cancelled) ⟨.cancelled, feed⟩
    takeRows plan (← takeRow plan feed row) rest

/-- Feeds all rows in and waits for all uploads. -/
def upload (plan : Plan) (feed : Feed) (rows : List (Except RowFault Row)) :
    Work Error (Feed × Summary) := do
  match ← (takeRows plan feed rows).attempt with
  | .ok feed => return (feed, ← feed.scheduler.finish)
  | .error setback =>
    setback.feed.discard
    let _ ← setback.feed.scheduler.drain
    throw setback.error

end Feed

end BulkLoad.Import
