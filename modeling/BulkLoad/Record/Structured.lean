import BulkLoad.Json.Basic
import BulkLoad.MessagePack.Basic

/-!
# Documents as packed values

A document is packed node by node: integers stay integers, doubles doubles, an object becomes a map
from texts in the order of its fields. `Packed.toJson?` is the way back.
-/

namespace BulkLoad.Packed

mutual

/-- The packed form of a document. -/
def ofJson : Json → Packed
  | .null => .nil
  | .bool b => .bool b
  | .number (.whole n) => .int n
  | .number (.double x) => .double x
  | .string s => .text s
  | .array items => .array (ofItems items)
  | .object fields => .map (ofFields fields)

def ofItems : List Json → List Packed
  | [] => []
  | item :: rest => ofJson item :: ofItems rest

def ofFields : List (String × Json) → List (Packed × Packed)
  | [] => []
  | (name, value) :: rest => (.text name, ofJson value) :: ofFields rest

end

mutual

/-- The document that a value is the packed form of, if its maps are keyed by texts. -/
def toJson? : Packed → Option Json
  | .nil => some .null
  | .bool b => some (.bool b)
  | .int n => some (.number (.whole n))
  | .double x => some (.number (.double x))
  | .text s => some (.string s)
  | .array items => (toItems? items).map .array
  | .map entries => (toFields? entries).map .object

def toItems? : List Packed → Option (List Json)
  | [] => some []
  | item :: rest => do return (← toJson? item) :: (← toItems? rest)

def toFields? : List (Packed × Packed) → Option (List (String × Json))
  | [] => some []
  | (.text name, value) :: rest => do return (name, ← toJson? value) :: (← toFields? rest)
  | _ => none

end

end BulkLoad.Packed
