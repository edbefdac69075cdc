import BulkLoad.Json.Decode
import BulkLoad.Rehearsal.Service
import BulkLoad.Json.Text
import BulkLoad.Text.Hex

/-!
# Reading scripts

A script is written as an array of routes, each a pattern and an array of reactions. A reaction is a
status, or a record; its body is text, bytes in hexadecimal digits, or a document, which stands for
its compact text.
-/

namespace BulkLoad.Rehearsal

/-- The body that a document stands for. -/
def bodyOf : Json → List UInt8
  | .null => []
  | .string s => Text.Utf8.encode s
  | json => Text.Utf8.encode json.text

/-- Bytes in hexadecimal digits. -/
def bytes : Json.Decoder (List UInt8) := fun room raw => do
  match Text.Hex.decode? (← Json.Decoder.string room raw) with
  | some bytes => return bytes
  | none => throw .mismatch

/-- A reaction that is written as a record. -/
def Reaction.recordDecoder : Json.Decoder Reaction :=
  .record {}
    [.may "status" (.natural 999) fun r status => { r with status },
      .may "body" .document fun r json => { r with body := bodyOf json },
      .may "body_hex" bytes fun r body => { r with body },
      .may "drop" .bool fun r drops => { r with drops },
      .may "cancel" .bool fun r cancels => { r with cancels }]

def Reaction.decoder : Json.Decoder Reaction := fun room raw =>
  match Json.Decoder.natural 999 room raw with
  | .ok status => .ok { status }
  | .error _ => Reaction.recordDecoder room raw

def Route.decoder : Json.Decoder Route :=
  .record ⟨"", []⟩
    [.must "pattern" .string fun route pattern => { route with pattern },
      .must "replies" (.list Reaction.decoder) fun route reactions => { route with reactions }]

/-- A script. -/
def script : Json.Decoder (List Route) :=
  .list Route.decoder

end BulkLoad.Rehearsal
