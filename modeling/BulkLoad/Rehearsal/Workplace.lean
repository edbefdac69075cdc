import BulkLoad.Command.Ending
import BulkLoad.Command.VariableFile
import BulkLoad.Rehearsal.World

/-!
# Workplaces

The surroundings of a command, all in memory: those of an import, a directory with files, and an
environment. `Workplace.run` carries a command line out from the reading of its words to its ending.
-/

namespace BulkLoad.Rehearsal

/-- The surroundings of a command. -/
structure Workplace where
  world : World
  /-- The directory in which the command is run, as the names on the way to it. -/
  home : List String
  /-- The files by the names on the way to them. -/
  files : List (List String × List UInt8)
  /-- The directories by the names on the way to them. -/
  directories : List (List String)
  environment : List (String × String)

namespace Workplace

/-- The names on the way that a path goes on from a directory; `way` has the names so far,
backwards. -/
def follow (way : List String) : List String → List String
  | [] => way.reverse
  | ".." :: rest => follow way.tail rest
  | name :: rest =>
    if name.isEmpty || name = "." then follow way rest else follow (name :: way) rest

/-- The names on the way that a path goes. -/
def resolve (w : Workplace) (path : String) : List String :=
  follow (if path.toList.head? = some '/' then [] else w.home.reverse) (path.splitOn "/")

/-- What the system says of a directory that is read like a file. -/
def isDirectory : String := "Is a directory (os error 21)"

/-- Reads a file. -/
def read (w : Workplace) (path : String) : Except String (List UInt8) :=
  match w.files.lookup (w.resolve path) with
  | some content => .ok content
  | none =>
    .error (if w.directories.contains (w.resolve path) then isDirectory else World.noSuchFile)

/-- Opens the input. A directory is noticed only when it is read. -/
def openInput (w : Workplace) (path : String) : Except Part.FileFault Command.Input :=
  match w.read path with
  | .ok content => .ok ⟨content, none⟩
  | .error detail =>
    if w.directories.contains (w.resolve path) then .ok ⟨[], some detail⟩ else .error ⟨path, detail⟩

/-- Answers the questions of a job. -/
def answer (client : Api.Client) :
    (q : Command.Question) → Workplace → Command.Answer q × Workplace
  | .importing q, w =>
    let (a, world) := World.answer client q w.world
    (a, { w with world })
  | .openInput path, w => (w.openInput path, w)

/-- Makes a directory and those on the way to it. Nothing is made where a file is in the way. -/
def makeDirectory (w : Workplace) (path : String) : Workplace :=
  let way := w.resolve path
  let ways := (List.range way.length).map fun i => way.take (i + 1)
  if ways.any fun way => (w.files.lookup way).isSome then w
  else { w with directories := w.directories ++ ways.filter (!w.directories.contains ·) }

/-- The variables of the environment and of the file in the directory. -/
def lookup (w : Workplace) : String → Option String :=
  let given (name : String) : Option String := w.environment.lookup name
  match w.read ".env" with
  | .ok content => Command.VariableFile.applied given content
  | .error _ => given

/-- Runs a command line. -/
def run (library : Command.Library) (w : Workplace) (words : List String) :
    Command.Ending × Workplace :=
  match Command.Invocation.ofWords w.lookup words with
  | .error e => (.unused e, w)
  | .ok invocation =>
    let w := match (invocation.logSettings w.lookup).directoryToMake with
      | some directory => w.makeDirectory directory
      | none => w
    match invocation.job library w.lookup w.read with
    | .error e => (.failed e, w)
    | .ok job =>
      let (outcome, w) := (job.run library).run (answer job.driver.client) w
      (.ofOutcome outcome, w)

/-- The names of what is in the directory in which the command is run, in no order. -/
def entries (w : Workplace) : List String :=
  ((w.files.map (·.1) ++ w.directories).filterMap fun way =>
    if w.home.isPrefixOf way then (way.drop w.home.length).head? else none).eraseDups

end Workplace

end BulkLoad.Rehearsal
