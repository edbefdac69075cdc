import BulkLoad.Cell

/-!
# Targets

A target says which kind of packed value a column is written as. Unless its settings say otherwise a
column has the target of its type: timestamps are written as texts, documents as structured values.
-/

namespace BulkLoad.Record

/-- The kind of value that a cell is written as. -/
inductive Target
  | boolean
  | long
  | double
  | string
  /-- The document itself, with its arrays and objects. -/
  | structured
deriving DecidableEq, Repr

namespace Target

def name : Target → String
  | .boolean => "boolean"
  | .long => "long"
  | .double => "double"
  | .string => "string"
  | .structured => "structured"

/-- The target of a column of a type. -/
def ofType : ColumnType → Target
  | .boolean => .boolean
  | .long => .long
  | .double => .double
  | .string | .timestamp => .string
  | .json => .structured

/-- The targets by name, with a second name for structured values. -/
def named : List (String × Target) :=
  [.boolean, .long, .double, .string, .structured].map (fun target => (target.name, target))
    ++ [("json", .structured)]

def decoder : Json.Decoder Target :=
  .enumeration named none

end Target

/-- Why a row is not written as a record. -/
inductive EncodeError
  | notConvertible (column : String) (source : ColumnType) (target : Target) (detail : String)
  | nullTime (column : String)
  | invalidTime (column : String) (source : ColumnType)
  | rowWidth (expected actual : Nat)
deriving DecidableEq, Repr

def EncodeError.message : EncodeError → String
  | .notConvertible column source target detail => "Column '" ++ column ++ "': cannot convert "
      ++ source.name ++ " value to " ++ target.name ++ ": " ++ detail
  | .nullTime column => "Column '" ++ column ++ "' holds the partition key but is null"
  | .invalidTime column source => "Column '" ++ column ++ "': " ++ source.name
      ++ " value cannot be used as the partition key"
  | .rowWidth expected actual => "Row has " ++ Decimal.text actual
      ++ " values but the schema has " ++ Decimal.text expected ++ " columns"

/-- What ends the writing of a row: the row is refused, or a timestamp meets a pattern that has no
written form, which is a defect of the settings and not of the row. -/
inductive Failure
  | refused (e : EncodeError)
  | unwritable
deriving DecidableEq, Repr

end BulkLoad.Record
