import BulkLoad.Decimal.Integer
import BulkLoad.Double.Read
import BulkLoad.Double.Text
import BulkLoad.Json.Text
import BulkLoad.Record.Settings
import BulkLoad.Record.Structured

/-!
# Writing a cell as its target

`coerce` is the table of conversions: what a cell of each type becomes under each target. A null is
nil under all of them. A conversion that is not in the table is refused, and so is a value that the
target cannot hold.
-/

namespace BulkLoad.Record

/-- The signed 64-bit integer that a double is cut to, if it is one. -/
def truncate? (x : Double) : Option Int64 :=
  let i := x.truncate
  if x.isFinite && -0x8000000000000000 ≤ i && i < 0x8000000000000000 then some (Int64.ofInt i)
  else none

/-- The signed 64-bit integer that a text is, blanks around it apart. -/
def readLong (s : String) : Except Decimal.IntegerFault Int64 :=
  (Decimal.readInteger (-0x8000000000000000) 0x7FFFFFFFFFFFFFFF
    (Text.trimChars s.toList)).map Int64.ofInt

/-- The double that a text is, blanks around it apart. -/
def readDouble (s : String) : Except Double.TextFault Double :=
  Double.ofText (Text.trimChars s.toList)

/-- Seconds and the fraction of a second, each rounded to a double and then added. -/
def secondsDouble (t : Calendar.Instant) : Double :=
  (Double.ofInt t.seconds).add ((Double.ofNat t.nanos).div (Double.ofNat (1000000000)))

/-- The packed form of a cell under a target. -/
def coerce (column : String) (cell : Cell) (target : Target) (formatter : Formatter) :
    Except Failure Packed :=
  let refuse {α : Type} (source : ColumnType) (detail : String) : Except Failure α :=
    .error (.refused (.notConvertible column source target detail))
  match cell, target with
  | .null, _ => .ok .nil
  | .boolean b, .boolean => .ok (.bool b)
  | .boolean b, .long => .ok (.ofInt64 (if b then 1 else 0))
  | .boolean b, .double => .ok (.double (Double.ofNat (if b then 1 else 0)))
  | .boolean b, .string => .ok (.text (if b then "true" else "false"))
  | .long i, .boolean => .ok (.bool (i ≠ 0))
  | .long i, .long => .ok (.ofInt64 i)
  | .long i, .double => .ok (.double (Double.ofInt i.toInt))
  | .long i, .string => .ok (.text (Decimal.signedText i.toInt))
  | .double x, .boolean => .ok (.bool (!x.isZero))
  | .double x, .long =>
    match truncate? x with
    | some i => .ok (.ofInt64 i)
    | none => refuse .double "out of range"
  | .double x, .double => .ok (.double x)
  | .double x, .string => .ok (.text x.plainText)
  | .string s, .boolean => .ok (.bool (s ≠ ""))
  | .string s, .long =>
    match readLong s with
    | .ok i => .ok (.ofInt64 i)
    | .error fault => refuse .string fault.message
  | .string s, .double =>
    match readDouble s with
    | .ok x => .ok (.double x)
    | .error fault => refuse .string fault.message
  | .string s, .string => .ok (.text s)
  | .timestamp t, .long => .ok (.ofInt64 t.seconds64)
  | .timestamp t, .double => .ok (.double (secondsDouble t))
  | .timestamp t, .string =>
    match formatter.text? t with
    | some s => .ok (.text s)
    | none => .error .unwritable
  | .json document, .string => .ok (.text document.text)
  | .json document, .structured => .ok (.ofJson document)
  | .boolean _, .structured => refuse .boolean "unsupported conversion"
  | .long _, .structured => refuse .long "unsupported conversion"
  | .double _, .structured => refuse .double "unsupported conversion"
  | .string _, .structured => refuse .string "unsupported conversion"
  | .timestamp _, .boolean => refuse .timestamp "unsupported conversion"
  | .timestamp _, .structured => refuse .timestamp "unsupported conversion"
  | .json _, .boolean => refuse .json "unsupported conversion"
  | .json _, .long => refuse .json "unsupported conversion"
  | .json _, .double => refuse .json "unsupported conversion"

end BulkLoad.Record
