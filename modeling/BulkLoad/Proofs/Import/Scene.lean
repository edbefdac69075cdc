import BulkLoad.Proofs.Import.Notes
import Mathlib.Logic.Function.Basic

/-!
# Imports beside their uploads

An import and the uploads that it starts run beside one another and share the part files. A `Scene`
is what they share : the uploads so far, each with what is left of it, and the content of the files.
`Move` tells what can happen next, and a `Run` is any order of such moves : the uploads go on at any
speed between the questions of the import, the service and the file system answer as they like, and
an upload may crash at any time.
-/

namespace BulkLoad.Import

open Program (Trace Leads)

/-- The content of the part files; compressing them loses nothing. -/
abbrev Files : Type := String → Option (List UInt8)

/-- How the file system answers, and what becomes of the files. The sizes are arbitrary. What is
left of a file that could not be written is arbitrary as well. -/
inductive Serves : Files → (q : Part.Question) → Part.Answer q → Files → Prop
  /-- A file is made under a path that no file has. -/
  | created {files : Files} {directory : Option String} {name path : String}
    (h : files path = none) :
    Serves files (.create directory name) (.ok path) (Function.update files path (some []))
  | notCreated {files : Files} {directory : Option String} {name : String}
    {fault : Part.FileFault} : Serves files (.create directory name) (.error fault) files
  | appended {files : Files} {path : String} {content bytes : List UInt8} {size : Nat}
    (h : files path = some content) :
    Serves files (.append path bytes) (.ok size)
      (Function.update files path (some (content ++ bytes)))
  | notAppended {files : Files} {path : String} {bytes : List UInt8} {detail : String}
    {left : Option (List UInt8)} :
    Serves files (.append path bytes) (.error detail) (Function.update files path left)
  | closed {files : Files} {path : String} {size : Nat} :
    Serves files (.close path) (.ok size) files
  | notClosed {files : Files} {path : String} {fault : Part.FileFault}
    {left : Option (List UInt8)} :
    Serves files (.close path) (.error fault) (Function.update files path left)
  | removed {files : Files} {path : String} :
    Serves files (.remove path) () (Function.update files path none)

/-- An upload and what is left of it. -/
structure Running where
  file : Part.File
  rest : Program Upload.Answer Empty Upload.Ending

/-- What an import shares with its uploads. -/
structure Scene where
  /-- The uploads by their tickets. -/
  uploads : List Running
  files : Files

namespace Scene

/-- What an upload goes on with. -/
def goOn (scene : Scene) (ticket : Nat) (file : Part.File)
    (rest : Program Upload.Answer Empty Upload.Ending) : Scene :=
  { scene with uploads := scene.uploads.set ticket ⟨file, rest⟩ }

/-- The content of the file that a request brings along. -/
def carried (scene : Scene) : Api.Question → Option (List UInt8)
  | .send ⟨_, _, .file path⟩ => scene.files path
  | _ => none

end Scene

/-- What happens during an import. -/
inductive Happening
  /-- The import asks a question and is given the answer. -/
  | own (e : Event)
  /-- An upload does, with the content of the file that it sends. -/
  | beside (ticket : Nat) (content : Option (List UInt8)) (e : Program.Event Upload.Answer)
  | crashed (ticket : Nat)

/-- The questions that neither concern the files nor the uploads. -/
def Question.isAside : Question → Prop
  | .part _ | .startUpload .. | .awaitUpload _ => False
  | _ => True

/-- What can happen in a scene, and the scene then. -/
inductive Move (client : Api.Client) : Scene → Happening → Scene → Prop
  | part {scene : Scene} {q : Part.Question} {a : Part.Answer q} {files : Files}
    (h : Serves scene.files q a files) :
    Move client scene (.own ⟨.part q, a⟩) { scene with files }
  | started {scene : Scene} (session : String) (file : Part.File) :
    Move client scene (.own ⟨.startUpload session file, scene.uploads.length⟩)
      { scene with uploads := scene.uploads ++ [⟨file, Upload.task client session file⟩] }
  | awaited {scene : Scene} {ticket : Nat} {file : Part.File} {ending : Upload.Ending}
    (h : scene.uploads[ticket]? = some ⟨file, .done ending⟩) :
    Move client scene (.own ⟨.awaitUpload ticket, ending⟩) scene
  | aside {scene : Scene} {q : Question} (h : q.isAside) (a : Answer q) :
    Move client scene (.own ⟨q, a⟩) scene
  /-- An upload sends its request or waits. -/
  | called {scene : Scene} {ticket : Nat} {file : Part.File} {q : Api.Question}
    {next : Api.Answer q → Program Upload.Answer Empty Upload.Ending}
    (h : scene.uploads[ticket]? = some ⟨file, .ask (.api q) next⟩) (a : Api.Answer q) :
    Move client scene (.beside ticket (scene.carried q) ⟨.api q, a⟩)
      (scene.goOn ticket file (next a))
  /-- An upload works on a file. -/
  | worked {scene : Scene} {ticket : Nat} {file : Part.File} {q : Part.Question}
    {next : Part.Answer q → Program Upload.Answer Empty Upload.Ending} {a : Part.Answer q}
    {files : Files} (h : scene.uploads[ticket]? = some ⟨file, .ask (.part q) next⟩)
    (hs : Serves scene.files q a files) :
    Move client scene (.beside ticket none ⟨.part q, a⟩)
      { scene.goOn ticket file (next a) with files }
  /-- An upload crashes, and its file is gone. -/
  | crashed {scene : Scene} {ticket : Nat} {file : Part.File} {q : Upload.Question}
    {next : Upload.Answer q → Program Upload.Answer Empty Upload.Ending}
    (h : scene.uploads[ticket]? = some ⟨file, .ask q next⟩) :
    Move client scene (.crashed ticket)
      { scene.goOn ticket file (.done .crashed) with
        files := Function.update scene.files file.path none }

namespace Move

variable {client : Api.Client} {scene scene' : Scene}

/-- An import is told how an upload has ended. -/
theorem of_awaited {ticket : Nat} {ending : Upload.Ending}
    (m : Move client scene (.own ⟨.awaitUpload ticket, ending⟩) scene') :
    scene' = scene ∧ ∃ file, scene.uploads[ticket]? = some ⟨file, .done ending⟩ := by
  cases m with
  | aside h => exact h.elim
  | awaited h => exact ⟨rfl, _, h⟩

/-- An upload sends what its file holds at the moment. -/
theorem of_called {ticket : Nat} {content : Option (List UInt8)} {q : Api.Question}
    {a : Api.Answer q} (m : Move client scene (.beside ticket content ⟨.api q, a⟩) scene') :
    content = scene.carried q ∧ ∃ file next,
      scene.uploads[ticket]? = some ⟨file, .ask (.api q) next⟩ ∧
        scene' = scene.goOn ticket file (next a) := by
  cases m with
  | called h => exact ⟨rfl, _, _, h, rfl⟩

end Move

/-- What can happen from a scene on, in order, and the scene then. -/
inductive Path (client : Api.Client) (start : Scene) : List Happening → Scene → Prop
  | nil : Path client start [] start
  | snoc {log : List Happening} {scene scene' : Scene} {happening : Happening}
    (h : Path client start log scene) (m : Move client scene happening scene') :
    Path client start (log ++ [happening]) scene'

/-- The questions of the import, with their answers. -/
def own (log : List Happening) : List Event :=
  log.filterMap fun
    | .own e => some e
    | _ => none

/-- The questions of one upload, with their answers. -/
def beside (ticket : Nat) (log : List Happening) : List (Program.Event Upload.Answer) :=
  log.filterMap fun
    | .beside t _ e => if t = ticket then some e else none
    | _ => none

/-- A run of a program beside the uploads that it starts. -/
structure Run {α : Type} (client : Api.Client) (p : Work Error α) (log : List Happening)
    (outcome : Option (Outcome Error α)) : Prop where
  /-- There are no uploads before, but there may be files. -/
  path : ∃ files scene, Path client ⟨[], files⟩ log scene
  trace : Trace p (own log) outcome

end BulkLoad.Import
