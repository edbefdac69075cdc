import BulkLoad.Api.Endpoint
import BulkLoad.Api.Retry
import BulkLoad.Decimal.Digits
import BulkLoad.Text.Percent
import BulkLoad.Text.Utf8

/-!
# Requests

A request names an operation and may bring a form or the content of a file along. What comes back is
an answer with a status, or nothing. Between two attempts a client waits, unless it is cancelled;
these are all the questions that a call asks.
-/

namespace BulkLoad.Api

/-- What a request does. -/
inductive Method
  | get
  | post
  | put
deriving DecidableEq, Repr

def Method.name : Method → String
  | .get => "GET"
  | .post => "POST"
  | .put => "PUT"

/-- What a request brings along. -/
inductive Body
  | empty
  /-- A form with one field. -/
  | form (field value : String)
  /-- The content of the file at a path. -/
  | file (path : String)
deriving DecidableEq, Repr

/-- The type of what is brought along. -/
def Body.contentType? : Body → Option String
  | .empty => none
  | .form .. => some "application/x-www-form-urlencoded"
  | .file _ => some "application/octet-stream"

/-- The bytes that are brought along, where `content` is that of the file. -/
def Body.bytes (content : List UInt8) : Body → List UInt8
  | .empty => []
  | .form field value =>
    Text.Utf8.encode (Text.Percent.encode field ++ "=" ++ Text.Percent.encode value)
  | .file _ => content

/-- A request to the service. -/
structure Request where
  method : Method
  endpoint : Endpoint
  body : Body
deriving DecidableEq, Repr

/-- What comes of a request. -/
inductive Reply
  | answered (status : Nat) (body : List UInt8)
  /-- There was no connection, or it broke. -/
  | dropped (detail : String)
  /-- The request was not sent, since its file could not be read. -/
  | unreadable (detail : String)
deriving DecidableEq, Repr

/-- What a call asks of its surroundings. -/
inductive Question
  | send (request : Request)
  /-- Waits; the answer says whether the client is cancelled. -/
  | wait (span : Span)
deriving DecidableEq

/-- The answers to the questions of a call. -/
abbrev Answer : Question → Type
  | .send _ => Reply
  | .wait _ => Bool

/-- The line of a request that says who sends it. -/
def authorization (key : String) : String :=
  "TD1 " ++ key

/-- The name of the program. -/
def programName : String := "tdbulk"

/-- The version of the program. -/
def programVersion : String := "0.1.0"

/-- How a client names itself. -/
def userAgent : String := programName ++ "/" ++ programVersion

/-- Whether a key can stand in the line of a request: it has no control character but the tab. -/
def isSendable (key : String) : Bool :=
  key.toList.all fun c => c = '\t' || (' ' ≤ c && c.toNat ≠ 127)

end BulkLoad.Api
