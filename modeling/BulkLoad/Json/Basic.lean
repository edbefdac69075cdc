import BulkLoad.Double.Basic
import BulkLoad.Whole

/-!
# JSON documents

A document is a tree of nulls, booleans, numbers, strings, arrays and objects. A number is a
whole number that fits in 64 bits, or a double. An object is the list of its fields; a document
that was read has them in rising order of their names, each name once (`insertField`).
-/

namespace BulkLoad

/-- A number of a document. -/
inductive Json.Number
  | whole (n : Whole)
  | double (x : Double)
deriving DecidableEq

/-- A JSON document. -/
inductive Json
  | null
  | bool (b : Bool)
  | number (n : Json.Number)
  | string (s : String)
  | array (items : List Json)
  | object (fields : List (String × Json))

namespace Json

instance : Inhabited Json := ⟨.null⟩

/-- Puts a field in its place among fields in rising order; a field of the same name gives way. -/
def insertField (name : String) (value : Json) : List (String × Json) → List (String × Json)
  | [] => [(name, value)]
  | (other, old) :: rest =>
    if name = other then (name, value) :: rest
    else if name < other then (name, value) :: (other, old) :: rest
    else (other, old) :: insertField name value rest

/-- The object with the given fields, of which the last one of each name counts. -/
def ofFields (fields : List (String × Json)) : Json :=
  .object (fields.foldl (fun sorted field => insertField field.1 field.2 sorted) [])

/-- The field of an object with the given name. -/
def field? (name : String) (fields : List (String × Json)) : Option Json :=
  fields.lookup name

def int (i : Int) : Json :=
  match Whole.ofInt? i with
  | some n => .number (.whole n)
  | none => .number (.double (Double.ofInt i))

/-- A value that may be missing; null stands for a missing one. -/
def optional {α : Type} (f : α → Json) : Option α → Json
  | some a => f a
  | none => .null

/-- A natural number that may be missing. -/
def optionalNat : Option Nat → Json :=
  optional fun n => int n

end Json

end BulkLoad
