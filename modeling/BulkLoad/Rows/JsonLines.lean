import BulkLoad.Calendar.Rfc3339
import BulkLoad.Cell
import BulkLoad.Text.Blank
import BulkLoad.Text.Utf8

/-!
# Rows from lines of JSON

Each line of the input is a JSON object; the cell of a column is the field of its name, converted by
what the field holds rather than by what the column asks for (`Cell.ofField`). Blank lines are
skipped. A line that is no object is an error of its own and does not concern the lines after it
(`JsonLines.next`).
-/

namespace BulkLoad

/-! ## Cells -/

/-- The cell of a number: a long where it fits, else a double. -/
def Cell.ofNumber : Json.Number → Cell
  | .whole n =>
    match n.toInt64? with
    | some i => .long i
    | none => .double (Double.ofInt n.val)
  | .double x => .double x

/-- The nanoseconds in a second. -/
def nanosPerSecond : Nat := 1000000000

/-- The instant that a number of seconds since 1970 stands for; what is below a second is rounded to
nanoseconds and does not reach the next second. -/
def Calendar.Instant.ofNumber? : Json.Number → Option Calendar.Instant
  | .whole n => Calendar.Instant.ofEpoch? n.val 0
  | .double x =>
    let seconds := x.floor
    let below := ((x.add (Double.ofInt seconds).neg).mul (Double.ofNat nanosPerSecond)).round
    Calendar.Instant.ofEpoch? seconds (min below.toNat (nanosPerSecond - 1))

/-- The cell of a field in a column of a type. -/
def Cell.ofField : ColumnType → Json → Cell
  | _, .null => .null
  | .json, document => .json document
  | .timestamp, .string s =>
    match Calendar.Instant.ofText? s with
    | some t => .timestamp t
    | none => .string s
  | .timestamp, .number n =>
    match Calendar.Instant.ofNumber? n with
    | some t => .timestamp t
    | none => Cell.ofNumber n
  | _, .bool b => .boolean b
  | _, .number n => Cell.ofNumber n
  | _, .string s => .string s
  | _, document => .json document

/-- The row of an object; a column without a field is null. -/
def Schema.rowOf (schema : Schema) (fields : List (String × Json)) : Row :=
  schema.columns.map fun column =>
    match Json.field? column.name fields with
    | some json => Cell.ofField column.type json
    | none => .null

/-! ## Lines -/

/-- What can be wrong with a line. -/
inductive LineFault
  | notText
  /-- The line is text, but no document. -/
  | notJson (detail : String)
  | notAnObject
  /-- The input could not be read any further. -/
  | unreadable (detail : String)
deriving DecidableEq, Repr

def LineFault.message : LineFault → String
  | .notText => "stream did not contain valid UTF-8"
  | .notJson detail => "invalid JSON: " ++ detail
  | .notAnObject => "expected a JSON object"
  | .unreadable detail => detail

/-- A line that gives no row, by its number. -/
structure RowFault where
  line : Nat
  fault : LineFault
deriving DecidableEq, Repr

def RowFault.message (e : RowFault) : String :=
  "line " ++ Decimal.text e.line ++ ": " ++ e.fault.message

/-- The byte that ends a line. -/
def lineEnd : UInt8 := 10

/-- The lines of `bytes`, where `line` has the bytes of the first one read so far and `before` the
lines before it, both backwards. -/
def linesFrom (line : List UInt8) (before : List (List UInt8)) : List UInt8 → List (List UInt8)
  | [] => (if line.isEmpty then before else line.reverse :: before).reverse
  | byte :: rest =>
    if byte = lineEnd then linesFrom [] (line.reverse :: before) rest
    else linesFrom (byte :: line) before rest

/-- The lines of a text, without their ends; the last one need not have an end. -/
def linesOf (bytes : List UInt8) : List (List UInt8) :=
  linesFrom [] [] bytes

/-- What a line gives. -/
inductive LineResult
  | blank
  | row (cells : Row)
  | fault (e : LineFault)

/-- Reads one line; `words` says of a text what keeps it from being a document. -/
def Schema.readLine (schema : Schema) (words : String → String) (line : List UInt8) : LineResult :=
  match Text.Utf8.decode? line with
  | none => .fault .notText
  | some s =>
    let s := Text.trim s
    if s.isEmpty then .blank
    else match Json.parse? s with
      | none => .fault (.notJson (words s))
      | some (.object fields) => .row (schema.rowOf fields)
      | some _ => .fault .notAnObject

/-- The lines that were not read yet, and the number of those that were. -/
structure JsonLines where
  schema : Schema
  /-- What keeps a text from being a document, in the words of the library that reads it. -/
  words : String → String
  lines : List (List UInt8)
  /-- The number of lines read; one that is not text is not counted. -/
  count : Nat

namespace JsonLines

def ofBytes (schema : Schema) (words : String → String) (bytes : List UInt8) : JsonLines :=
  ⟨schema, words, linesOf bytes, 0⟩

/-- The first row or fault among lines, the lines after it and the number of lines read then. -/
def nextFrom (schema : Schema) (words : String → String) (count : Nat) :
    List (List UInt8) → Option (Except RowFault Row) × JsonLines
  | [] => (none, ⟨schema, words, [], count⟩)
  | line :: rest =>
    match schema.readLine words line with
    | .blank => nextFrom schema words (count + 1) rest
    | .row cells => (some (.ok cells), ⟨schema, words, rest, count + 1⟩)
    | .fault .notText => (some (.error ⟨count + 1, .notText⟩), ⟨schema, words, rest, count⟩)
    | .fault e => (some (.error ⟨count + 1, e⟩), ⟨schema, words, rest, count + 1⟩)

/-- The next row or fault, if there is one. -/
def next (input : JsonLines) : Option (Except RowFault Row) × JsonLines :=
  nextFrom input.schema input.words input.count input.lines

/-- What a number of calls of `next` give, and the input after each. -/
def nextOnes (input : JsonLines) : Nat → List (Option (Except RowFault Row) × JsonLines)
  | 0 => []
  | calls + 1 => input.next :: input.next.2.nextOnes calls

/-- All rows and faults from `count` lines on. -/
def rowsFrom (schema : Schema) (words : String → String) (count : Nat) :
    List (List UInt8) → List (Except RowFault Row)
  | [] => []
  | line :: rest =>
    match schema.readLine words line with
    | .blank => rowsFrom schema words (count + 1) rest
    | .row cells => .ok cells :: rowsFrom schema words (count + 1) rest
    | .fault .notText => .error ⟨count + 1, .notText⟩ :: rowsFrom schema words count rest
    | .fault e => .error ⟨count + 1, e⟩ :: rowsFrom schema words (count + 1) rest

/-- All rows and faults that are left. -/
def rows (input : JsonLines) : List (Except RowFault Row) :=
  rowsFrom input.schema input.words input.count input.lines

end JsonLines

end BulkLoad
