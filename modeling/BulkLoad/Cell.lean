import BulkLoad.Calendar.Instant
import BulkLoad.Schema

/-!
# Cells and rows

A row of input has a cell for each column. A cell is null or has a value of one of the column
types, which need not be the type of its column.
-/

namespace BulkLoad

/-- A value of a row. -/
inductive Cell
  | null
  | boolean (b : Bool)
  | long (i : Int64)
  | double (x : Double)
  | string (s : String)
  | timestamp (t : Calendar.Instant)
  | json (document : Json)

instance : Inhabited Cell := ⟨.null⟩

/-- The type of the value; a null has none. -/
def Cell.type? : Cell → Option ColumnType
  | .null => none
  | .boolean _ => some .boolean
  | .long _ => some .long
  | .double _ => some .double
  | .string _ => some .string
  | .timestamp _ => some .timestamp
  | .json _ => some .json

/-- The cells of a row in the order of the columns. -/
abbrev Row : Type := List Cell

end BulkLoad
