import BulkLoad.Json.Raw

/-!
# Texts of settings files

The lowest level of a TOML text: blanks, comments and the ends of lines, strings in their four
notations, and keys. Each reader returns what it read and the rest of the text. A line ends with a
line feed, which a carriage return may precede; inside a string both are read as a line feed.
-/

namespace BulkLoad.Toml

/-- A blank inside a line. -/
def isBlank (c : Char) : Bool :=
  c = ' ' || c = '\t'

/-- A character that may stand in comments and in strings as it is: no control character but the
tab. -/
def isPlain (c : Char) : Bool :=
  c = '\t' || (' ' ≤ c && c.toNat ≠ 127)

def skipBlanks (cs : List Char) : List Char :=
  cs.dropWhile isBlank

/-- The text after the end of a line that stands next. -/
def newline? : List Char → Option (List Char)
  | '\n' :: rest => some rest
  | '\r' :: '\n' :: rest => some rest
  | _ => none

/-- The text after a comment, if one stands next. -/
def skipComment : List Char → List Char
  | '#' :: rest => rest.dropWhile isPlain
  | cs => cs

/-- The text after the line, if nothing but blanks and a comment is left of it. -/
def endLine? (cs : List Char) : Option (List Char) :=
  match skipComment (skipBlanks cs) with
  | [] => some []
  | cs => newline? cs

/-! ## Strings -/

/-- What was read, and the rest of the text. -/
abbrev Reading : Type := Option (List Char × List Char)

/-- Puts a character before what was read. -/
def Reading.put (c : Char) (reading : Reading) : Reading :=
  reading.map fun (cs, rest) => (c :: cs, rest)

/-- The character that a letter after a backslash stands for. -/
def escape? : Char → Option Char
  | 'b' => some '\x08'
  | 't' => some '\t'
  | 'n' => some '\n'
  | 'f' => some '\x0c'
  | 'r' => some '\r'
  | '"' => some '"'
  | '\\' => some '\\'
  | _ => none

/-- The character with a number. -/
def scalar? (n : Nat) : Option Char :=
  if n.isValidChar then some (Char.ofNat n) else none

/-- Where a reader stands in a string with escapes. -/
inductive Place
  | plain
  /-- In blanks that follow a line which ends in a backslash. -/
  | joined
  /-- After a backslash. -/
  | escape
  /-- In blanks after a backslash, before the end of the line. -/
  | lineEnd
  /-- Before `left + 1` hexadecimal digits, after digits worth `sofar`. -/
  | code (left sofar : Nat)

/-- Reads a string on one line, from after its opening quotation mark. -/
def readBasic : Place → List Char → Reading
  | _, [] => none
  | .escape, c :: rest =>
    if c = 'u' then readBasic (.code 3 0) rest
    else if c = 'U' then readBasic (.code 7 0) rest
    else (escape? c).bind fun e => (readBasic .plain rest).put e
  | .code left sofar, c :: rest => do
    let sofar := 16 * sofar + (← Text.Hex.value? c)
    match left with
    | 0 => (readBasic .plain rest).put (← scalar? sofar)
    | left + 1 => readBasic (.code left sofar) rest
  | _, c :: rest =>
    if c = '"' then some ([], rest)
    else if c = '\\' then readBasic .escape rest
    else if isPlain c then (readBasic .plain rest).put c
    else none

/-- Ends a string over several lines at a row of three to five marks, of which the last three close
it; `rest` is the text after the first mark. Fewer marks belong to the string. -/
def closing? (mark : Char) (rest : List Char) : Reading :=
  let count := min 5 (1 + (rest.takeWhile (· = mark)).length)
  if 3 ≤ count then some (List.replicate (count - 3) mark, rest.drop (count - 1)) else none

/-- A carriage return that a line feed does not follow. -/
def isLoneReturn (c : Char) (rest : List Char) : Bool :=
  c = '\r' && rest.head? ≠ some '\n'

/-- Reads a string over several lines, from after its three quotation marks. A backslash at the end
of a line takes the blanks and the ends of lines after it away. -/
def readLongBasic : Place → List Char → Reading
  | _, [] => none
  | .escape, c :: rest =>
    if isLoneReturn c rest then none
    else if c = '\n' || c = '\r' then readLongBasic .joined rest
    else if isBlank c then readLongBasic .lineEnd rest
    else if c = 'u' then readLongBasic (.code 3 0) rest
    else if c = 'U' then readLongBasic (.code 7 0) rest
    else (escape? c).bind fun e => (readLongBasic .plain rest).put e
  | .lineEnd, c :: rest =>
    if isLoneReturn c rest then none
    else if c = '\n' || c = '\r' then readLongBasic .joined rest
    else if isBlank c then readLongBasic .lineEnd rest
    else none
  | .code left sofar, c :: rest => do
    let sofar := 16 * sofar + (← Text.Hex.value? c)
    match left with
    | 0 => (readLongBasic .plain rest).put (← scalar? sofar)
    | left + 1 => readLongBasic (.code left sofar) rest
  | place, c :: rest =>
    let joined := place matches .joined
    if isLoneReturn c rest then none
    else if c = '\r' then readLongBasic place rest
    else if joined && (c = '\n' || isBlank c) then readLongBasic .joined rest
    else if c = '"' then (closing? c rest).or ((readLongBasic .plain rest).put c)
    else if c = '\\' then readLongBasic .escape rest
    else if c = '\n' || isPlain c then (readLongBasic .plain rest).put c
    else none

/-- Reads a string without escapes on one line, from after its opening apostrophe. -/
def readLiteral : List Char → Reading
  | [] => none
  | c :: rest =>
    if c = '\'' then some ([], rest)
    else if isPlain c then (readLiteral rest).put c
    else none

/-- Reads a string without escapes over several lines, from after its three apostrophes. -/
def readLongLiteral : List Char → Reading
  | [] => none
  | c :: rest =>
    if isLoneReturn c rest then none
    else if c = '\r' then readLongLiteral rest
    else if c = '\'' then (closing? c rest).or ((readLongLiteral rest).put c)
    else if c = '\n' || isPlain c then (readLongLiteral rest).put c
    else none

/-- The end of a line right after the opening marks does not belong to the string. -/
def skipFirstNewline (cs : List Char) : List Char :=
  (newline? cs).getD cs

/-- Reads a string that stands next. -/
def readString : List Char → Reading
  | '"' :: '"' :: '"' :: rest => readLongBasic .plain (skipFirstNewline rest)
  | '"' :: rest => readBasic .plain rest
  | '\'' :: '\'' :: '\'' :: rest => readLongLiteral (skipFirstNewline rest)
  | '\'' :: rest => readLiteral rest
  | _ => none

/-! ## Keys -/

/-- A character of a key without quotation marks. -/
def isKeyChar (c : Char) : Bool :=
  c.isAlphanum || c = '_' || c = '-'

/-- Reads one name of a key. -/
def readName : List Char → Reading
  | '"' :: rest => readBasic .plain rest
  | '\'' :: rest => readLiteral rest
  | cs =>
    if (cs.takeWhile isKeyChar).isEmpty then none
    else some (cs.takeWhile isKeyChar, cs.dropWhile isKeyChar)

/-- Reads at most `room` names with points between them; blanks around a name are skipped. -/
def readKey : (room : Nat) → List Char → Option (List String × List Char)
  | 0, _ => none
  | room + 1, cs => do
    let (name, rest) ← readName (skipBlanks cs)
    match skipBlanks rest with
    | '.' :: rest =>
      let (names, rest) ← readKey room rest
      return (String.ofList name :: names, rest)
    | rest => return ([String.ofList name], rest)

end BulkLoad.Toml
