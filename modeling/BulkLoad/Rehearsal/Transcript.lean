import BulkLoad.Rehearsal.World
import BulkLoad.Text.Hex

/-!
# Transcripts

What a service received, a line a request: method, target and body. The bytes of a file are given by
their digits. Uploads that follow one another run at the same time, so their order says nothing;
they are listed in rising order.
-/

namespace BulkLoad.Rehearsal

namespace Received

/-- The request brought a file along. -/
def isUpload (received : Received) : Bool :=
  received.method = .put

/-- The body in words; nothing is lost of the bytes of a file. -/
def bodyText (received : Received) : String :=
  if received.isUpload then "gz:" ++ Text.Hex.encode received.body
  else Text.Utf8.decodeLossy received.body

/-- The line of a request. -/
def line (received : Received) : String :=
  if received.body.isEmpty then received.key else received.key ++ " " ++ received.bodyText

end Received

/-- Texts in rising order. -/
def rising (texts : List String) : List String :=
  texts.mergeSort fun a b => !(b < a)

/-- The lines of requests, where `uploads` are those of the uploads just before. -/
def linesAfter (uploads : List String) : List Received → List String
  | [] => rising uploads
  | received :: rest =>
    if received.isUpload then linesAfter (received.line :: uploads) rest
    else rising uploads ++ received.line :: linesAfter [] rest

/-- The lines of all requests. -/
def World.transcript (w : World) : List String :=
  linesAfter [] w.service.received.reverse

end BulkLoad.Rehearsal
