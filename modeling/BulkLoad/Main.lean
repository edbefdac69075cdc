import BulkLoad.Command.Ending
import BulkLoad.Command.Standard
import BulkLoad.Command.VariableFile
import BulkLoad.Http.Message
import BulkLoad.Part.Stream
import Std.Async.DNS
import Std.Async.Signal
import Std.Async.System
import Std.Async.TCP
import Std.Time.DateTime.Timestamp

/-!
# The program

The surroundings of a command line in a real system: the environment, the files, the clock, and the
connections to the service, which are not encrypted. Nothing is decided here; every question is put
to the system and its answer handed back.
-/

namespace BulkLoad.Main

open Std.Async

/-! ## Files -/

/-- What the system says went wrong. -/
def detailOf : IO.Error → String
  | .noFileOrDirectory _ code detail | .interrupted _ code detail
  | .alreadyExists _ code detail | .invalidArgument _ code detail
  | .permissionDenied _ code detail | .resourceExhausted _ code detail
  | .inappropriateType _ code detail | .noSuchThing _ code detail
  | .otherError code detail | .resourceBusy code detail | .resourceVanished code detail
  | .unsupportedOperation code detail | .hardwareFault code detail
  | .unsatisfiedConstraints code detail | .illegalOperation code detail
  | .protocolError code detail | .timeExpired code detail =>
    detail ++ " (os error " ++ Decimal.text code.toNat ++ ")"
  | .unexpectedEof => "unexpected end of file"
  | .userError detail => detail

/-- The result of an action, or what the system says went wrong. -/
def orDetail {α : Type} (action : IO α) : IO (Except String α) := do
  match ← action.toBaseIO with
  | .ok a => return .ok a
  | .error e => return .error (detailOf e)

/-- Reads a file. -/
def readFile (path : String) : IO (Except String (List UInt8)) :=
  orDetail do return (← (← IO.FS.Handle.mk path .read).readBinToEnd).toList

/-- Opens the input, and reads as much of it as can be read. -/
def openInput (path : String) : IO (Except Part.FileFault Command.Input) := do
  match ← orDetail (IO.FS.Handle.mk path .read) with
  | .error detail => return .error ⟨path, detail⟩
  | .ok handle =>
    match ← orDetail handle.readBinToEnd with
    | .ok content => return .ok ⟨content.toList, none⟩
    | .error detail => return .ok ⟨[], some detail⟩

/-! ## The process -/

/-- A part file that is open. -/
structure OpenPart where
  handle : IO.FS.Handle
  stream : Part.Stream

/-- What the process holds on to while a job is carried out. -/
structure Process where
  client : Api.Client
  cancelled : IO.Ref Bool
  parts : IO.Ref (List (String × OpenPart))
  uploads : IO.Ref (Array (Task (Except IO.Error Import.Upload.Ending)))

/-- The moment. -/
def now : IO Calendar.Instant := do
  let nanos := (← Std.Time.Timestamp.now).toNanosecondsSinceUnixEpoch.val
  match Calendar.Instant.ofEpoch? (nanos / 1000000000) (nanos % 1000000000).toNat with
  | some moment => return moment
  | none => throw (.userError "the clock is out of range")

/-- A random number. -/
def randomId : IO UInt32 := do
  return UInt32.ofNat (MessagePack.ofBigEndian (← IO.getRandomBytes 4).toList)

/-- Waits, and looks every now and then whether the job is cancelled. -/
partial def pause (p : Process) (millis : Nat) : IO Bool := do
  if ← p.cancelled.get then return true
  if millis = 0 then return false
  let step := min millis 50
  IO.sleep (UInt32.ofNat step)
  pause p (millis - step)

/-! ## Connections -/

/-- The addresses of a host. -/
def addresses (host : String) (port : UInt16) : Async (Array Std.Net.SocketAddress) := do
  let found ← match Std.Net.IPv4Addr.ofString host with
    | some address => pure #[Std.Net.IPAddr.v4 address]
    | none => DNS.getAddrInfo host (Decimal.text port.toNat)
  return found.map fun
    | .v4 address => .v4 ⟨address, port⟩
    | .v6 address => .v6 ⟨address, port⟩

/-- Connects to the first address that answers. -/
def connect : List Std.Net.SocketAddress → Async TCP.Socket.Client
  | [] => throw (.userError "no address answers")
  | address :: rest => do
    let socket ← TCP.Socket.Client.mk
    try
      socket.connect address
      return socket
    catch _ => connect rest

/-- Receives all up to the end of a connection. -/
partial def receiveAll (socket : TCP.Socket.Client) (received : ByteArray) : Async ByteArray := do
  match ← socket.recv? 65536 with
  | some bytes => receiveAll socket (received.append bytes)
  | none => return received

/-- Sends bytes to a host and receives the answer. -/
def exchange (host : String) (port : UInt16) (bytes : List UInt8) : Async ByteArray := do
  let socket ← connect (← addresses host port).toList
  socket.send bytes.toByteArray
  receiveAll socket .empty

/-- Sends a request that brings along the content of a file, or none. -/
def send (p : Process) (request : Api.Request) (content : List UInt8) : IO Api.Reply := do
  match (p.client.library.readUrl p.client.baseUrl).toOption with
  | some ⟨"http", some host, port⟩ =>
    if Api.isSendable p.client.key then
      let port := port.getD 80
      let authority := if port = 80 then host else host ++ ":" ++ Decimal.text port
      let bytes := Http.requestBytes authority p.client.key (← now) request content
      match ← (exchange host (UInt16.ofNat port) bytes).block.toBaseIO with
      | .ok answer => return Http.replyOf answer.toList
      | .error e => return .dropped (detailOf e)
    else return .dropped "the key cannot be sent"
  | _ => return .dropped "the service cannot be reached from here"

/-! ## Answers -/

/-- Answers the questions of a call. -/
def answerCall (p : Process) : (q : Api.Question) → IO (Api.Answer q)
  | .send request => do
    match request.body with
    | .file path =>
      match ← readFile path with
      | .ok content => send p request content
      | .error detail => return .unreadable detail
    | _ => send p request []
  | .wait span => pause p span.millis

/-- The directory of part files that are to be in no other. -/
def usualDirectory : IO String := do
  return ((← IO.getEnv "TMPDIR").filter (!·.isEmpty)).getD "/tmp"

/-- Replaces what is known of an open part. -/
def setPart (path : String) (part : OpenPart) (parts : List (String × OpenPart)) :
    List (String × OpenPart) :=
  (path, part) :: parts.filter (·.1 ≠ path)

/-- Opens a part file. -/
def createPart (p : Process) (directory : Option String) (name : String) :
    IO (Except Part.FileFault String) := do
  let directory ← match directory with
    | some directory => pure directory
    | none => usualDirectory
  let path := directory ++ "/" ++ Part.fileName name (Import.idText (← randomId))
  match ← orDetail (IO.FS.Handle.mk path .writeNew) with
  | .error detail => return .error ⟨directory, detail⟩
  | .ok handle =>
    p.parts.modify (setPart path ⟨handle, {}⟩)
    return .ok path

/-- Adds bytes to a part file. -/
def appendPart (p : Process) (path : String) (bytes : List UInt8) : IO (Except String Nat) := do
  match (← p.parts.get).lookup path with
  | none => return .error "the file is not open"
  | some part =>
    let (stream, out) := part.stream.add bytes
    p.parts.modify (setPart path { part with stream })
    orDetail do
      part.handle.write out
      return stream.written

/-- Closes a part file. -/
def closePart (p : Process) (path : String) : IO (Except Part.FileFault Nat) := do
  match (← p.parts.get).lookup path with
  | none => return .error ⟨path, "the file is not open"⟩
  | some part =>
    let rest := part.stream.finish
    p.parts.modify (·.filter (·.1 ≠ path))
    match ← orDetail (do part.handle.write rest; part.handle.flush) with
    | .ok () => return .ok (part.stream.written + rest.size)
    | .error detail => return .error ⟨path, detail⟩

/-- Answers the questions of the work on a part. -/
def answerPart (p : Process) : (q : Part.Question) → IO (Part.Answer q)
  | .create directory name => createPart p directory name
  | .append path bytes => appendPart p path bytes
  | .close path => closePart p path
  | .remove path => do
    p.parts.modify (·.filter (·.1 ≠ path))
    let _ ← (IO.FS.removeFile path).toBaseIO

/-- Answers the questions of an upload. -/
def answerUpload (p : Process) : (q : Import.Upload.Question) → IO (Import.Upload.Answer q)
  | .api q => answerCall p q
  | .part q => answerPart p q

/-- Carries an upload out. -/
def upload (p : Process) (session : String) (file : Part.File) : IO Import.Upload.Ending := do
  match ← (Import.Upload.task p.client session file).interpret (answerUpload p) with
  | .done ending => return ending
  | _ => return .crashed

/-- Answers the questions of an import. -/
def answerImport (p : Process) : (q : Import.Question) → IO (Import.Answer q)
  | .api q => answerCall p q
  | .part q => answerPart p q
  | .startUpload session file => do
    let task ← IO.asTask (upload p session file) .dedicated
    p.uploads.modifyGet fun uploads => (uploads.size, uploads.push task)
  | .awaitUpload ticket => do
    match (← p.uploads.get)[ticket]? with
    | none => return .crashed
    | some task =>
      match ← IO.wait task with
      | .ok ending => return ending
      | .error _ => return .crashed
  | .pause span => pause p span.millis
  | .cancelled => p.cancelled.get
  | .clock => IO.monoNanosNow
  | .now => now
  | .randomId => randomId

/-- Answers the questions of a job. -/
def answerJob (p : Process) : (q : Command.Question) → IO (Command.Answer q)
  | .importing q => answerImport p q
  | .openInput path => openInput path

/-! ## Command lines -/

/-- The content of the file of variables in a directory or in one above it. -/
def variableFile : (above : Nat) → (directory : String) → IO (List UInt8)
  | 0, _ => return []
  | above + 1, directory => do
    match ← readFile (directory ++ "/.env") with
    | .ok content => return content
    | .error _ => variableFile above (directory ++ "/..")

/-- The number of directories above the one in which the process runs. -/
def depth : IO Nat := do
  return ((← IO.currentDir).toString.toList.filter (· = '/')).length

/-- Cancels the job when the process is asked to stop. -/
def watch (cancelled : IO.Ref Bool) (signal : Signal) : IO Unit := do
  let waiter ← Signal.Waiter.mk signal false
  let asked ← waiter.wait
  let _ ← IO.mapTask (fun _ => do
    IO.eprintln "Interrupted, stopping..."
    cancelled.set true) asked

/-- Carries a job out. -/
def perform (job : Command.Job) : IO Command.Ending := do
  let cancelled ← IO.mkRef false
  watch cancelled .sigint
  watch cancelled .sigterm
  let p : Process := ⟨job.driver.client, cancelled, ← IO.mkRef [], ← IO.mkRef #[]⟩
  return .ofOutcome (← (job.run .standard).interpret (answerJob p))

/-- Runs a command line that was understood. -/
def runInvocation (invocation : Command.Invocation) (lookup : String → Option String) :
    IO Command.Ending := do
  if let some directory := (invocation.logSettings lookup).directoryToMake then
    let _ ← (IO.FS.createDirAll directory).toBaseIO
  let content ← match invocation.settingsFile with
    | some path => readFile path
    | none => pure (.ok [])
  match invocation.job .standard lookup fun _ => content with
  | .error e => return .failed e
  | .ok job => perform job

/-- Runs a command line. -/
def run (words : List String) : IO Command.Ending := do
  let file ← variableFile ((← depth) + 1) "."
  let environment ← System.getEnv
  let lookup := Command.VariableFile.applied environment.get? file
  match Command.Invocation.ofWords lookup words with
  | .error e => return .unused e
  | .ok invocation => runInvocation invocation lookup

end BulkLoad.Main

/-- Runs the command line and ends with its status. -/
def main (words : List String) : IO UInt32 := do
  let ending ← BulkLoad.Main.run words
  for line in ending.output do
    IO.println line
  for line in ending.complaint do
    IO.eprintln line
  return UInt32.ofNat ending.exitStatus
