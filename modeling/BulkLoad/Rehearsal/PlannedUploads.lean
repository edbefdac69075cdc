import BulkLoad.Rehearsal.Transcript

/-!
# Planned uploads

Surroundings in which uploads reach no service but end as planned, by the names of their parts. What
is handed over is noted with its content.
-/

namespace BulkLoad.Rehearsal

/-- Surroundings with a plan. -/
structure PlannedUploads where
  /-- How uploads end; those without an entry succeed. -/
  endings : List (String × Import.Upload.Ending)
  world : World
  /-- The parts handed over with their content, the last one first. -/
  handed : List (String × List UInt8) := []

namespace PlannedUploads

/-- Carries an upload out as planned, and removes its file. -/
def upload (file : Part.File) (p : PlannedUploads) : Nat × PlannedUploads :=
  let ticket := p.world.endings.length
  let ending := (p.endings.lookup file.name).getD .uploaded
  let (_, world) := World.answerPart (.remove file.path) p.world
  (ticket, { p with
    world := { world with endings := (ticket, ending) :: world.endings }
    handed := (file.name, p.world.content file.path) :: p.handed })

/-- Answers the questions of an import. -/
def answer (client : Api.Client) :
    (q : Import.Question) → PlannedUploads → Import.Answer q × PlannedUploads
  | .startUpload _ file, p => p.upload file
  | q, p =>
    let (a, world) := World.answer client q p.world
    (a, { p with world })

/-- Makes a part with a number of records that have a time and nothing else. -/
def makePart (number records : Nat) : Part.Work (Option Part.File) := do
  let part ← Part.create none "t" number
  let part ← (List.range records).foldlM
    (fun part i => part.add (.map [(.text "time", .ofInt64 (Int64.ofNat i))])) part
  part.finish

end PlannedUploads

end BulkLoad.Rehearsal
