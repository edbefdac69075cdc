import BulkLoad.Import.Question

/-!
# Driving a session

A session goes from uploading to performing, ready, committing and committed; the steps from
uploading and from ready are asked for, the other two are waited for. A driver takes a session on
from whatever stage it is in. An answer that a step was taken already counts as success, so that a
step can be repeated.
-/

namespace BulkLoad.Import

/-- How a driver goes about its sessions. -/
structure SessionDriver where
  client : Api.Client
  /-- Milliseconds between two looks at a session. -/
  pollInterval : Nat := 3000
  /-- Seconds after which waiting is given up. -/
  pollTimeout : Nat := 21600
  /-- Whether a session with bad records is left uncommitted. -/
  stopOnInvalid : Bool := false
  /-- The most looks at a session in one wait. -/
  patience : Nat := 0x100000000000000000000

/-- The stage that a step leads to. -/
def nextStatus : Api.Status → Api.Status
  | .uploading => .performing
  | .performing => .ready
  | .ready => .committing
  | .committing => .committed
  | .committed => .committed
  | .unknown => .unknown

/-- The number of steps to the last stage; from an unknown one the first step fails. -/
def stepsLeft : Api.Status → Nat
  | .uploading => 4
  | .performing => 3
  | .ready => 2
  | .committing => 1
  | .committed => 0
  | .unknown => 1

namespace SessionDriver

def ofSettings (client : Api.Client) (s : Settings) : SessionDriver :=
  { client, pollInterval := s.pollInterval, pollTimeout := s.pollTimeout,
    stopOnInvalid := s.stopOnInvalid }

/-- Looks at a session. -/
def look (d : SessionDriver) (name : String) : Work Error Api.Session :=
  calling (d.client.session name)

/-- Creates a session, if it is not there, and reports whether parts should be uploaded: a session
that is past its upload, or frozen, takes none. -/
def start (d : SessionDriver) (name database table : String) : Work Error Bool := do
  let _ ← callingOrConflict (d.client.createSession name database table)
  let session ← d.look name
  Program.require (session.database = database && session.table = table)
    (.settings (.foreignSession name database table session.database session.table))
  match session.status with
  | .uploading => return !session.frozen
  | .unknown => throw (.unknownStatus name)
  | _ => return false

/-- Looks at a session, `patience` times at most, until it leaves a stage for the expected one. -/
def poll (d : SessionDriver) (name : String) (current expecting : Api.Status) (started : Nat) :
    (patience : Nat) → Work Error Api.Session
  | 0 => .aborted .patience
  | patience + 1 => do
    let session ← d.look name
    if session.status = expecting then return session
    else
      Program.require (session.status = current)
        (.wrongStatus name current expecting session.status)
      let elapsed := (← ask .clock : Nat) - started
      Program.require (elapsed < d.pollTimeout * 1000000000)
        (.pollTimeout name expecting (elapsed / 1000000000))
      let cancelled : Bool ← ask (.pause (Api.Span.ofMillis d.pollInterval))
      Program.require (!cancelled) .cancelled
      poll d name current expecting started patience

/-- Waits until a session leaves a stage for the expected one. -/
def waitFor (d : SessionDriver) (name : String) (current expecting : Api.Status) :
    Work Error Api.Session := do
  let started ← ask .clock
  d.poll name current expecting started d.patience

/-- Freezes a session, unless it is frozen. -/
def freeze (d : SessionDriver) (name : String) : Work Error Unit := do
  let session ← d.look name
  if session.frozen then return ()
  else
    let _ ← callingOrConflict (d.client.freezeSession name)

/-- Commits a session, unless it has bad records and they matter. -/
def commit (d : SessionDriver) (name : String) : Work Error Unit := do
  let session ← d.look name
  Program.require (session.errors = 0 || !d.stopOnInvalid) (.invalidRecords name session.errors)
  let _ ← callingOrConflict (d.client.commitSession name)

/-- Takes a session on by one step. -/
def advance (d : SessionDriver) (name : String) (priority : Int) : Api.Status → Work Error Unit
  | .uploading => do
    d.freeze name
    let _ ← callingOrConflict (d.client.performSession name priority)
  | .performing => do
    let _ ← d.waitFor name .performing .ready
  | .ready => d.commit name
  | .committing => do
    let _ ← d.waitFor name .committing .committed
  | .committed => return ()
  | .unknown => throw (.unknownStatus name)

/-- Takes a session on by one step and tells the stage that it leads to. -/
def step (d : SessionDriver) (name : String) (status : Api.Status) (priority : Int) :
    Work Error Api.Status := do
  d.advance name priority status
  return nextStatus status

/-- Takes a session on by a number of steps. -/
def advanceBy (d : SessionDriver) (name : String) (priority : Int) : Nat → Api.Status →
    Work Error Unit
  | 0, _ => return ()
  | steps + 1, status => do d.advanceBy name priority steps (← d.step name status priority)

/-- Takes a session from a stage to the last one. -/
def drive (d : SessionDriver) (name : String) (status : Api.Status) (priority : Int) :
    Work Error Api.Session := do
  d.advanceBy name priority (stepsLeft status) status
  d.look name

/-- Takes a session from the stage that it is in to the last one. -/
def complete (d : SessionDriver) (name : String) (priority : Int) : Work Error Api.Session := do
  let session ← d.look name
  d.drive name session.status priority

/-- Deletes a session; the result tells whether it was there. -/
def delete (d : SessionDriver) (name : String) : Work Error Bool := do
  return (← callingOrMissing (d.client.deleteSession name)).isSome

end SessionDriver

end BulkLoad.Import
