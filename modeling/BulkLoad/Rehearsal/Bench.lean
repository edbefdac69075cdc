import BulkLoad.Rehearsal.World

/-!
# Benches

A place where one part at a time is worked on, for rehearsing the life of a part step by step. A
step that does not fit what lies on the bench changes nothing.
-/

namespace BulkLoad.Rehearsal

/-- What lies on a bench. -/
inductive Workpiece
  | nothing
  | builder (part : Part.Builder)
  | file (file : Part.File)
deriving DecidableEq, Repr

/-- One step of the work. -/
inductive BenchStep
  /-- Opens a part; what lay on the bench is removed. -/
  | create (directory : Option String) (stem : String) (number : Nat)
  /-- Adds a record a number of times. -/
  | add (record : Packed) (times : Nat)
  | finish
  /-- Removes the file of a part that is of no more use. -/
  | finalize
  /-- Removes whatever lies on the bench. -/
  | drop

/-- What came of a step. -/
inductive BenchEffect
  | done
  /-- The part was closed, but had no record. -/
  | empty
  | refused (fault : Part.Fault)
  | unfit
deriving DecidableEq, Repr

/-- A bench and its surroundings. -/
structure Bench where
  piece : Workpiece := .nothing
  world : World

/-- Adds a record a number of times. -/
def addTimes (record : Packed) (part : Part.Builder) : Nat → Part.Work Part.Builder
  | 0 => return part
  | times + 1 => do addTimes record (← part.add record) times

namespace Bench

/-- Removes what lies on the bench. -/
def clear (b : Bench) : Bench :=
  match b.piece with
  | .nothing => b
  | .builder part => ⟨.nothing, (World.answerPart (.remove part.path) b.world).2⟩
  | .file file => ⟨.nothing, (World.answerPart (.remove file.path) b.world).2⟩

/-- Works on a part; after a failure nothing lies on the bench. -/
def work {α : Type} (b : Bench) (work : Part.Work α) (keep : α → BenchEffect × Workpiece) :
    BenchEffect × Bench :=
  match work.run World.answerPart b.world with
  | (.done a, world) => ((keep a).1, ⟨(keep a).2, world⟩)
  | (.failed fault, world) => (.refused fault, ⟨.nothing, world⟩)
  | (.aborted _, world) => (.unfit, ⟨.nothing, world⟩)

/-- Takes a step. -/
def step (b : Bench) : BenchStep → BenchEffect × Bench
  | .create directory stem number =>
    b.clear.work (Part.create directory stem number) fun part => (.done, .builder part)
  | .add record times =>
    match b.piece with
    | .builder part => b.work (addTimes record part times) fun part => (.done, .builder part)
    | _ => (.unfit, b)
  | .finish =>
    match b.piece with
    | .builder part => b.work part.finish fun
      | some file => (.done, .file file)
      | none => (.empty, .nothing)
    | _ => (.unfit, b)
  | .finalize =>
    match b.piece with
    | .file _ => (.done, b.clear)
    | _ => (.unfit, b)
  | .drop => (.done, b.clear)

end Bench

end BulkLoad.Rehearsal
