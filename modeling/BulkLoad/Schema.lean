import BulkLoad.Json.Decode

/-!
# Schemas

A schema is the list of the columns of a table of input rows, each with a name and a type. Names are
told apart character by character; `Schema.ofColumns` refuses columns that share one, so that
what it accepts is `Distinct`.
-/

namespace BulkLoad

/-- The type of a column. -/
inductive ColumnType
  | boolean
  | long
  | double
  | string
  | timestamp
  /-- Arrays, objects and any other document. -/
  | json
deriving DecidableEq, Repr

namespace ColumnType

def name : ColumnType → String
  | .boolean => "boolean"
  | .long => "long"
  | .double => "double"
  | .string => "string"
  | .timestamp => "timestamp"
  | .json => "json"

/-- The types by name. -/
def named : List (String × ColumnType) :=
  [.boolean, .long, .double, .string, .timestamp, .json].map fun type => (type.name, type)

/-- Other names of types. -/
def aliases : List (String × ColumnType) :=
  [("bool", .boolean), ("int", .long), ("integer", .long), ("float", .double)]

/-- The type that a word names in any case. No name has a letter to which a character outside ASCII
is the capital, so the case of ASCII letters is all that matters. -/
def ofWord? (word : String) : Option ColumnType :=
  (named ++ aliases).lookup (String.ofList (word.toList.map Char.toLower))

def decoder : Json.Decoder ColumnType :=
  .enumeration named none

/-- A column of this type can hold the partition key. -/
def holdsTime (type : ColumnType) : Bool :=
  type = .long || type = .timestamp

end ColumnType

/-- A column of the input. -/
structure Column where
  name : String
  type : ColumnType
deriving DecidableEq, Repr

namespace Column

def decoder : Json.Decoder Column :=
  .record ⟨"", .string⟩
    [.must "name" .string fun column name => { column with name },
      .must "type" ColumnType.decoder fun column type => { column with type }]

def toJson (column : Column) : Json :=
  .object [("name", .string column.name), ("type", .string column.type.name)]

end Column

/-- What can be wrong with the columns of a schema. -/
inductive SchemaError
  | unknownType (word : String)
  | duplicateColumn (name : String)
deriving DecidableEq, Repr

def SchemaError.message : SchemaError → String
  | .unknownType word => "Unknown column type: '" ++ word
      ++ "'. Expected one of boolean, long, double, string, timestamp, json"
  | .duplicateColumn name => "Duplicate column name in schema: '" ++ name ++ "'"

/-- The columns of the input in their order. -/
structure Schema where
  columns : List Column
deriving DecidableEq, Repr

namespace Schema

def names (schema : Schema) : List String :=
  schema.columns.map (·.name)

/-- No two columns share a name. -/
def Distinct (schema : Schema) : Prop :=
  schema.names.Nodup

/-- The first name that has been seen before. -/
def firstDuplicate (seen : List String) : List Column → Option String
  | [] => none
  | column :: rest =>
    if seen.contains column.name then some column.name
    else firstDuplicate (column.name :: seen) rest

/-- The schema with the given columns, unless two share a name. -/
def ofColumns (columns : List Column) : Except SchemaError Schema :=
  match firstDuplicate [] columns with
  | some name => .error (.duplicateColumn name)
  | none => .ok ⟨columns⟩

def width (schema : Schema) : Nat :=
  schema.columns.length

/-- The position of the first column of a name. -/
def index? (schema : Schema) (name : String) : Option Nat :=
  schema.columns.findIdx? (·.name = name)

/-- The first column of a name. -/
def column? (schema : Schema) (name : String) : Option Column :=
  schema.columns.find? (·.name = name)

def contains (schema : Schema) (name : String) : Bool :=
  schema.names.contains name

def decoder : Json.Decoder Schema := fun room raw =>
  (Json.Decoder.list Column.decoder room raw).map .mk

end Schema

/-- The type that a word names, or the fault of an unknown one. -/
def ColumnType.ofWord (word : String) : Except SchemaError ColumnType :=
  match ofWord? word with
  | some type => .ok type
  | none => .error (.unknownType word)

end BulkLoad
