import BulkLoad.Import.Question
import BulkLoad.Rehearsal.Service

/-!
# Rehearsals

The surroundings of an import, all in memory: a scripted service, part files, a clock that only
waiting moves, and signals to cancel. An upload is carried out when it is started. A part file takes
up no more than its head until it is closed.
-/

namespace BulkLoad.Rehearsal

/-- The state of the surroundings. -/
structure World where
  service : Service
  /-- Whether requests reach the service. -/
  reachable : Bool := true
  /-- The part files with their content. -/
  files : List (String × List UInt8) := []
  /-- Directories that are not there. -/
  missing : List String := []
  clientCancelled : Bool := false
  importCancelled : Bool := false
  /-- Whether what cancels the client cancels the import as well. -/
  shared : Bool := true
  /-- The nanoseconds since the start. -/
  time : Nat := 0
  moment : Calendar.Instant
  /-- The endings of the uploads by their tickets. -/
  endings : List (Nat × Import.Upload.Ending) := []
  /-- The number of files made so far. -/
  made : Nat := 0
  random : UInt32 := 0

namespace World

/-- Cancels the client. -/
def cancel (w : World) : World :=
  { w with clientCancelled := true, importCancelled := w.importCancelled || w.shared }

/-- The content of a part file. -/
def content (w : World) (path : String) : List UInt8 :=
  (w.files.lookup path).getD []

/-- What the system says of a file that is not there. -/
def noSuchFile : String := "No such file or directory (os error 2)"

/-- What the system says of a service that does not answer. -/
def noAnswer : String := "connection closed before message completed"

/-- Carries a request to the service. -/
def deliver (w : World) (request : Api.Request) (content : List UInt8) : Api.Reply × World :=
  if w.reachable then
    let (reaction, service) := w.service.answer (.ofRequest request content)
    let w := { w with service }
    let w := if reaction.cancels then w.cancel else w
    if reaction.drops then (.dropped noAnswer, w)
    else (.answered reaction.status
      (if reaction.status = 204 || reaction.status = 304 then [] else reaction.body), w)
  else (.dropped noAnswer, w)

/-- Answers the questions of a call. -/
def answerCall : (q : Api.Question) → World → Api.Answer q × World
  | .send request, w =>
    match request.body with
    | .file path =>
      match w.files.lookup path with
      | some content => w.deliver request content
      | none => (.unreadable noSuchFile, w)
    | _ => w.deliver request []
  | .wait span, w => (w.clientCancelled, { w with time := w.time + span.nanos })

/-- The size of the head of a compressed file. -/
def headSize : Nat := 10

/-- The size of the tail of a compressed file. -/
def tailSize : Nat := 8

/-- Answers the questions of the work on a part. -/
def answerPart : (q : Part.Question) → World → Part.Answer q × World
  | .create directory name, w =>
    let directory := directory.getD "."
    let fileName := Part.fileName name (String.ofList (Decimal.padded 6 w.made))
    if w.missing.contains directory || !Part.isFileName fileName then
      (.error ⟨directory, noSuchFile⟩, w)
    else
      let path := directory ++ "/" ++ fileName
      (.ok path, { w with files := (path, []) :: w.files, made := w.made + 1 })
  | .append path bytes, w =>
    let extend (file : String × List UInt8) : String × List UInt8 :=
      if file.1 = path then (path, file.2 ++ bytes) else file
    (.ok headSize, { w with files := w.files.map extend })
  | .close path, w =>
    (.ok (headSize + (w.content path).length + tailSize), w)
  | .remove path, w => ((), { w with files := w.files.filter (·.1 ≠ path) })

/-- Answers the questions of an upload. -/
def answerUpload : (q : Import.Upload.Question) → World → Import.Upload.Answer q × World
  | .api q, w => answerCall q w
  | .part q, w => answerPart q w

/-- Carries an upload out. -/
def upload (client : Api.Client) (session : String) (file : Part.File) (w : World) : Nat × World :=
  let (outcome, w) := (Import.Upload.task client session file).run answerUpload w
  let ending := match outcome with
    | .done ending => ending
    | _ => .crashed
  let ticket := w.endings.length
  (ticket, { w with endings := (ticket, ending) :: w.endings })

/-- Answers the questions of an import. -/
def answer (client : Api.Client) : (q : Import.Question) → World → Import.Answer q × World
  | .api q, w => answerCall q w
  | .part q, w => answerPart q w
  | .startUpload session file, w => upload client session file w
  | .awaitUpload ticket, w => ((w.endings.lookup ticket).getD .crashed, w)
  | .pause span, w => (w.importCancelled, { w with time := w.time + span.nanos })
  | .cancelled, w => (w.importCancelled, w)
  | .clock, w => (w.time, w)
  | .now, w => (w.moment, w)
  | .randomId, w => (w.random, { w with random := w.random + 1 })

end World

end BulkLoad.Rehearsal
