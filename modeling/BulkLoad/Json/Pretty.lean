import BulkLoad.Json.Text

/-!
# JSON documents for readers

The form of a document with an item or a field a line, two spaces deeper than what holds it, and a
space between the name of a field and its value. What holds nothing is written without a space.
-/

namespace BulkLoad.Json

/-- The start of a line. -/
def lineStart (depth : Nat) : String :=
  "\n" ++ String.ofList (List.replicate (2 * depth) ' ')

mutual

/-- The text of a document that starts at a depth. -/
def prettyText (depth : Nat) : Json → String
  | .array (item :: rest) =>
    "[" ++ ",".intercalate (prettyItems (depth + 1) (item :: rest)) ++ lineStart depth ++ "]"
  | .object (field :: rest) =>
    "\x7b" ++ ",".intercalate (prettyFields (depth + 1) (field :: rest)) ++
      lineStart depth ++ "\x7d"
  | json => json.text

def prettyItems (depth : Nat) : List Json → List String
  | [] => []
  | item :: rest => (lineStart depth ++ prettyText depth item) :: prettyItems depth rest

def prettyFields (depth : Nat) : List (String × Json) → List String
  | [] => []
  | (name, value) :: rest =>
    (lineStart depth ++ quote name ++ ": " ++ prettyText depth value) :: prettyFields depth rest

end

/-- The lines of a document. -/
def prettyLines (json : Json) : List String :=
  (prettyText 0 json).splitOn "\n"

end BulkLoad.Json
