import BulkLoad.Cell
import BulkLoad.Decimal.Integer
import BulkLoad.Json.Text
import BulkLoad.MessagePack.Writer
import BulkLoad.Text.Hex

/-!
# Rows in scripts

A cell of a script is a record with the name of its kind and its value: integers as decimal text,
doubles as the sixteen digits of their bits, documents as their text, timestamps as seconds and
nanoseconds.
-/

namespace BulkLoad.Rehearsal

/-- A field of a record; null if it is missing. -/
def fieldOf (name : String) (fields : List (String × Json)) : Json :=
  (Json.field? name fields).getD .null

/-- A text. -/
def textOf : Json → Except Json.Fault String
  | .string s => .ok s
  | _ => .error .mismatch

/-- Whole numbers in a script are no larger than this, on either side of zero. -/
def wholeBound : Int := 0x80000000000000000000000000000000

/-- A whole number, which may be written as decimal text. -/
def wholeOf : Json → Except Json.Fault Int
  | .number (.whole n) => .ok n.val
  | .string s =>
    (Decimal.readInteger (-wholeBound) wholeBound s.toList).mapError fun _ => .mismatch
  | _ => .error .mismatch

/-- What a look-up gives, which should give something. -/
def given {α : Type} : Option α → Except Json.Fault α
  | some a => .ok a
  | none => .error .mismatch

/-- An instant given by its seconds and nanoseconds. -/
def instantOf (fields : List (String × Json)) : Except Json.Fault Calendar.Instant := do
  let seconds ← wholeOf (fieldOf "secs" fields)
  let nanos ← wholeOf (fieldOf "nanos" fields)
  given (Calendar.Instant.ofEpoch? seconds nanos.toNat)

/-- The cell of a kind with a value. -/
def cellOfKind (fields : List (String × Json)) : String → Except Json.Fault Cell
  | "null" => .ok .null
  | "boolean" =>
    match fieldOf "v" fields with
    | .bool b => .ok (.boolean b)
    | _ => .error .mismatch
  | "long" => return .long (Int64.ofInt (← wholeOf (fieldOf "v" fields)))
  | "double" => do
    let bytes ← given (Text.Hex.decode? (← textOf (fieldOf "v" fields)))
    return .double ⟨UInt64.ofNat (MessagePack.ofBigEndian bytes)⟩
  | "string" => return .string (← textOf (fieldOf "v" fields))
  | "timestamp" => return .timestamp (← instantOf fields)
  | "json" => do
    match Json.parse? (← textOf (fieldOf "v" fields)) with
    | some json => return .json json
    | none => throw .malformed
  | _ => .error .mismatch

/-- Reads a cell. -/
def cellOf : Json → Except Json.Fault Cell
  | .object fields => do cellOfKind fields (← textOf (fieldOf "t" fields))
  | _ => .error .mismatch

/-- A cell as it is written in scripts. -/
def cellJson (cell : Cell) : Json :=
  let kind : String × Json := ("t", .string ((cell.type?.map ColumnType.name).getD "null"))
  match cell with
  | .null => .object [kind]
  | .boolean b => .object [kind, ("v", .bool b)]
  | .long i => .object [kind, ("v", .string (Decimal.signedText i.toInt))]
  | .double x =>
    .object [kind, ("v", .string (Text.Hex.encode (MessagePack.bigEndian 8 x.bits.toNat)))]
  | .string s => .object [kind, ("v", .string s)]
  | .timestamp t =>
    .object [kind, ("secs", .string (Decimal.signedText t.seconds)), ("nanos", .int t.nanos)]
  | .json document => .object [kind, ("v", .string document.text)]

end BulkLoad.Rehearsal
