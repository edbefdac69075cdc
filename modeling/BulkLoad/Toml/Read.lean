import BulkLoad.Toml.Scalar
import BulkLoad.Toml.Table

/-!
# Reading settings files

A settings file is a TOML text: lines that give values to keys, and headers of sections.
`Toml.parse?` reads it as the document that the sections nest to.
-/

namespace BulkLoad.Toml

/-- The most names in a key, and the most arrays and inline tables inside one another. -/
def maximalNesting : Nat := 79

/-- The text after blanks, comments and ends of lines. -/
def skipLines : (fuel : Nat) → List Char → List Char
  | 0, cs => cs
  | fuel + 1, cs =>
    let cs := skipComment (skipBlanks cs)
    match newline? cs with
    | some rest => skipLines fuel rest
    | none => cs

/-- Splits a path into the names before the last one, and the last one. -/
def splitLast? (path : List String) : Option (List String × String) :=
  path.getLast?.map (path.dropLast, ·)

/-- Adds a value to an inline table, whose keys nest as those of a section do. -/
def putInline? (path : List String) (json : Json) (table : Table) : Option Table := do
  let (before, name) ← splitLast? path
  Table.put? [] before name json table

mutual

/-- Reads a value; at most `room` arrays and inline tables may be open inside one another. -/
def readValue : (fuel room : Nat) → List Char → Option (Json × List Char)
  | 0, _, _ => none
  | fuel + 1, room, cs =>
    match cs with
    | '"' :: _ => (readString cs).map fun (s, rest) => (.string (String.ofList s), rest)
    | '\'' :: _ => (readString cs).map fun (s, rest) => (.string (String.ofList s), rest)
    | '[' :: rest => do
      if room = 0 then none
      let (items, rest) ← readItems fuel (room - 1) rest
      return (.array items, rest)
    | '{' :: rest => do
      if room = 0 then none
      match skipBlanks rest with
      | '}' :: rest => return (.object [], rest)
      | rest =>
        let (table, rest) ← readPairs fuel (room - 1) [] rest
        return (table.toJson, rest)
    | cs => do
      let (token, rest) := takeToken cs
      return (← scalarOf? token, rest)

/-- Reads the rest of an array; a comma may stand after its last value. -/
def readItems : (fuel room : Nat) → List Char → Option (List Json × List Char)
  | 0, _, _ => none
  | fuel + 1, room, cs =>
    match skipLines cs.length cs with
    | ']' :: rest => some ([], rest)
    | cs => do
      let (item, rest) ← readValue fuel room cs
      match skipLines rest.length rest with
      | ',' :: rest =>
        let (items, rest) ← readItems fuel room rest
        return (item :: items, rest)
      | ']' :: rest => return ([item], rest)
      | _ => none

/-- Reads the rest of an inline table, which stands on one line. -/
def readPairs : (fuel room : Nat) → Table → List Char → Option (Table × List Char)
  | 0, _, _, _ => none
  | fuel + 1, room, table, cs => do
    let (path, rest) ← readKey maximalNesting cs
    match rest with
    | '=' :: rest =>
      let (json, rest) ← readValue fuel room (skipBlanks rest)
      let table ← putInline? path json table
      match skipBlanks rest with
      | ',' :: rest => readPairs fuel room table rest
      | '}' :: rest => return (table, rest)
      | _ => none
    | _ => none

end

/-- A text that is read in part: the table so far, and the path of the section that stands open. -/
structure Progress where
  root : Table
  header : List String

/-- Reads the header of a section, from after its first bracket. -/
def readHeader (progress : Progress) (cs : List Char) : Option (Progress × List Char) :=
  match cs with
  | '[' :: rest => do
    let (path, rest) ← readKey maximalNesting rest
    let (before, name) ← splitLast? path
    match rest with
    | ']' :: ']' :: rest => return (⟨← progress.root.openElement? before name, path⟩, rest)
    | _ => none
  | cs => do
    let (path, rest) ← readKey maximalNesting cs
    let (before, name) ← splitLast? path
    match rest with
    | ']' :: rest => return (⟨← progress.root.openSection? before name, path⟩, rest)
    | _ => none

/-- Reads a key and its value. -/
def readSetting (progress : Progress) (cs : List Char) : Option (Progress × List Char) := do
  let (path, rest) ← readKey maximalNesting cs
  let (before, name) ← splitLast? path
  match rest with
  | '=' :: rest =>
    let cs := skipBlanks rest
    let (json, rest) ← readValue (2 * cs.length + 2) maximalNesting cs
    return ({ progress with root := ← progress.root.put? progress.header before name json }, rest)
  | _ => none

/-- Reads lines to the end of the text. -/
def readLines : (fuel : Nat) → Progress → List Char → Option Table
  | 0, _, _ => none
  | fuel + 1, progress, cs =>
    match skipBlanks cs with
    | [] => some progress.root
    | '[' :: rest => do
      let (progress, rest) ← readHeader progress rest
      readLines fuel progress (← endLine? rest)
    | cs =>
      match endLine? cs with
      | some rest => readLines fuel progress rest
      | none => do
        let (progress, rest) ← readSetting progress cs
        readLines fuel progress (← endLine? rest)

/-- The character that may mark a text as such at its start. -/
def byteOrderMark : Char := Char.ofNat 0xFEFF

/-- Reads a settings file. -/
def parse? (s : String) : Option Json :=
  let cs := match s.toList with
    | c :: rest => if c = byteOrderMark then rest else c :: rest
    | [] => []
  (readLines (cs.length + 1) ⟨[], []⟩ cs).map Table.toJson

end BulkLoad.Toml
