import BulkLoad.Double.Text
import BulkLoad.Json.Basic
import BulkLoad.Text.Hex

/-!
# Writing JSON documents

The compact form of a document: no space between tokens, the fields of an object in their order,
finite doubles in their shortest form with a point or an exponent. In a string only the quote, the
backslash and the control characters below the space are escaped.
-/

namespace BulkLoad.Json

/-- A character of a string as it is written. -/
def escapeChar (c : Char) : List Char :=
  if c = '"' then ['\\', '"']
  else if c = '\\' then ['\\', '\\']
  else if c = '\n' then ['\\', 'n']
  else if c = '\r' then ['\\', 'r']
  else if c = '\t' then ['\\', 't']
  else if c.toNat = 8 then ['\\', 'b']
  else if c.toNat = 12 then ['\\', 'f']
  else if c.toNat < 0x20 then
    ['\\', 'u', '0', '0', Text.Hex.digit (c.toNat / 16), Text.Hex.digit (c.toNat % 16)]
  else [c]

/-- A string in quotes. -/
def quote (s : String) : String :=
  String.ofList ('"' :: s.toList.flatMap escapeChar ++ ['"'])

/-- A number; one that is not finite has no written form and is null. -/
def Number.text : Number → String
  | .whole n => Decimal.signedText n.val
  | .double x => if x.isFinite then x.documentText else "null"

mutual

/-- The compact text of a document. -/
def text : Json → String
  | .null => "null"
  | .bool b => if b then "true" else "false"
  | .number n => n.text
  | .string s => quote s
  | .array items => "[" ++ ",".intercalate (itemTexts items) ++ "]"
  | .object fields => "\x7b" ++ ",".intercalate (fieldTexts fields) ++ "\x7d"

def itemTexts : List Json → List String
  | [] => []
  | item :: rest => text item :: itemTexts rest

def fieldTexts : List (String × Json) → List String
  | [] => []
  | (name, value) :: rest => (quote name ++ ":" ++ text value) :: fieldTexts rest

end

end BulkLoad.Json
