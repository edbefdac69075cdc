import BulkLoad.Text.Blank
import BulkLoad.Text.Utf8

/-!
# Files of variables

A file of variables sets what the environment leaves unset, a line a variable: a name, an equals
sign and a value. A value ends at a blank unless it is quoted; in single quotes all characters stand
for themselves, elsewhere a backslash takes the meaning from the next character and a dollar sign
with a name stands for the value of a variable. A quoted value may go over several lines. What
follows the first line that is not well formed is not read (`assignments`).
-/

namespace BulkLoad.Command.VariableFile

/-! ## Lines -/

/-- Where a line stands between two of its characters. -/
inductive Place
  | text
  /-- After one blank, where a comment may start. -/
  | blank
  | escape
  | single
  | singleEscape
  | double
  | doubleEscape
deriving DecidableEq, Repr

/-- The place that a quote or a backslash outside quotes leads to. -/
def Place.opened? (c : Char) : Option Place :=
  if c = '\\' then some .escape
  else if c = '"' then some .double
  else if c = '\'' then some .single
  else none

/-- The place after a character. -/
def Place.after (c : Char) : Place → Place
  | .text =>
    if Text.isBlank c && c ≠ '\n' && c ≠ '\r' then .blank else (opened? c).getD .text
  | .blank => (opened? c).getD .text
  | .escape => .text
  | .single => if c = '\\' then .singleEscape else if c = '\'' then .text else .single
  | .singleEscape => .single
  | .double => if c = '\\' then .doubleEscape else if c = '"' then .text else .double
  | .doubleEscape => .double

/-- The part of a line before its comment, or the place at its end if it has none. -/
def scan (seen : List Char) (place : Place) : List Char → List Char ⊕ Place
  | [] => .inr place
  | c :: rest =>
    if place = .blank && c = '#' then .inl seen.reverse
    else scan (c :: seen) (place.after c) rest

/-- A line without its end. -/
def withoutEnd (cs : List Char) : List Char :=
  match cs.reverse with
  | '\n' :: '\r' :: rest => rest.reverse
  | '\n' :: rest => rest.reverse
  | _ => cs

/-! ## Values -/

/-- What the next character of a value means. -/
inductive Mode
  | plain
  | single
  | escaped
  /-- It may belong to the name after a dollar sign. -/
  | name (read : List Char)
  /-- It may belong to the name in braces after a dollar sign. -/
  | braced (read : List Char)
  /-- The value is over. -/
  | over
deriving DecidableEq, Repr

/-- A value as far as it is read, backwards. -/
structure Progress where
  mode : Mode := .plain
  /-- Within double quotes. -/
  double : Bool := false
  read : List Char := []

/-- The characters that a backslash stands before, and what they mean then. -/
def escapes : List (Char × Char) :=
  [('\\', '\\'), ('\'', '\''), ('"', '"'), ('$', '$'), (' ', ' '), ('n', '\n')]

/-- The value of the variable whose name was read backwards. -/
def substitute (lookup : String → Option String) (name : List Char) : List Char :=
  ((lookup (String.ofList name.reverse)).getD "").toList

/-- Adds characters to a value. -/
def Progress.add (p : Progress) (cs : List Char) : Progress :=
  { p with mode := .plain, read := cs.reverse ++ p.read }

/-- Reads a character outside names and single quotes. -/
def readPlain (c : Char) (p : Progress) : Progress :=
  if c = '$' then { p with mode := .name [] }
  else if c = '\\' then { p with mode := .escaped }
  else if c = '"' then { p with double := !p.double }
  else if p.double then p.add [c]
  else if c = '\'' then { p with mode := .single }
  else if c = ' ' || c = '\t' then { p with mode := .over }
  else p.add [c]

/-- Reads a value. -/
def readValue (lookup : String → Option String) (p : Progress) : List Char → Option (List Char)
  | [] =>
    match p.mode with
    | .single | .braced _ => none
    | .name name => if p.double then none else some (p.add (substitute lookup name)).read.reverse
    | _ => if p.double then none else some p.read.reverse
  | c :: rest =>
    match p.mode with
    | .over =>
      if c = ' ' || c = '\t' then readValue lookup p rest
      else if c = '#' then some p.read.reverse
      else none
    | .escaped =>
      match escapes.lookup c with
      | some meant => readValue lookup (p.add [meant]) rest
      | none => none
    | .single =>
      if c = '\'' then readValue lookup { p with mode := .plain } rest
      else readValue lookup { p with read := c :: p.read } rest
    | .name name =>
      if c.isAlphanum then readValue lookup { p with mode := .name (c :: name) } rest
      else if c = '\x7b' && name.isEmpty then readValue lookup { p with mode := .braced [] } rest
      else
        let p := p.add (substitute lookup name)
        if c = '$' then readValue lookup { p with mode := .name [] } rest
        else readValue lookup (p.add [c]) rest
    | .braced name =>
      if c = '\x7d' then readValue lookup (p.add (substitute lookup name)) rest
      else readValue lookup { p with mode := .braced (c :: name) } rest
    | .plain => readValue lookup (readPlain c p) rest

/-! ## Assignments -/

/-- A name and what follows it and the blanks after it. -/
def readName : List Char → Option (List Char × List Char)
  | [] => none
  | c :: cs =>
    if c.isAlpha || c = '_' then
      let isNameChar (c : Char) : Bool := c.isAlphanum || c = '_' || c = '.'
      some (c :: cs.takeWhile isNameChar, (cs.dropWhile isNameChar).dropWhile Text.isBlank)
    else none

/-- The name of an assignment and what follows the equals sign. The word `export` may stand before
the name. -/
def readTarget (cs : List Char) : Option (List Char × List Char) := do
  let (name, rest) ← readName cs
  match rest with
  | '=' :: value => return (name, value)
  | rest =>
    if name = "export".toList then
      match ← readName rest with
      | (name, '=' :: value) => return (name, value)
      | _ => none
    else none

/-- What a line says. -/
inductive Line
  | nothing
  | assignment (name value : String)
  | malformed
deriving DecidableEq, Repr

/-- Reads a line. -/
def readLine (lookup : String → Option String) (cs : List Char) : Line :=
  match Text.trimChars cs with
  | [] => .nothing
  | '#' :: _ => .nothing
  | cs =>
    match readTarget cs with
    | none => .malformed
    | some (name, rest) =>
      let name := String.ofList name
      match rest.dropWhile Text.isBlank with
      | [] => .assignment name ""
      | '#' :: _ => .assignment name ""
      | value =>
        match readValue lookup {} value with
        | some value => .assignment name (String.ofList value)
        | none => .malformed

/-! ## Files -/

/-- The environment with one more variable. -/
def extend (lookup : String → Option String) (name value : String) : String → Option String :=
  fun other => if other = name then some value else lookup other

/-- The lines of a file with their ends, where `line` has the bytes of the first one read so far,
backwards. -/
def linesFrom (line : List UInt8) : List UInt8 → List (List UInt8)
  | [] => if line.isEmpty then [] else [line.reverse]
  | byte :: rest =>
    if byte = 10 then (byte :: line).reverse :: linesFrom [] rest else linesFrom (byte :: line) rest

/-- The assignments of lines to variables that are not set, where `pending` has the lines read
already of a value that goes over several ones. -/
def assignmentsFrom (lookup : String → Option String) (pending : List Char) (place : Place) :
    List (List UInt8) → List (String × String)
  | [] => []
  | bytes :: rest =>
    let take (cs : List Char) : List (String × String) :=
      match readLine lookup cs with
      | .nothing => assignmentsFrom lookup [] .text rest
      | .malformed => []
      | .assignment name value =>
        if (lookup name).isSome then assignmentsFrom lookup [] .text rest
        else (name, value) :: assignmentsFrom (extend lookup name value) [] .text rest
    match Text.Utf8.decode? bytes with
    | none => []
    | some line =>
      let cs := pending ++ line.toList
      if (cs.dropWhile Text.isBlank).head? = some '#' then assignmentsFrom lookup [] .text rest
      else match scan [] place line.toList with
        | .inl kept => take (pending ++ kept)
        | .inr .text => take (withoutEnd cs)
        | .inr place => assignmentsFrom lookup cs place rest

/-- A file without the mark of its encoding. -/
def withoutMark : List UInt8 → List UInt8
  | 0xEF :: 0xBB :: 0xBF :: rest => rest
  | bytes => bytes

/-- The variables that a file sets, where `lookup` is the environment. -/
def assignments (lookup : String → Option String) (bytes : List UInt8) : List (String × String) :=
  assignmentsFrom lookup [] .text (linesFrom [] (withoutMark bytes))

/-- The environment with the variables of a file. -/
def applied (lookup : String → Option String) (bytes : List UInt8) : String → Option String :=
  let set := assignments lookup bytes
  fun name => (lookup name).or (set.lookup name)

end BulkLoad.Command.VariableFile
