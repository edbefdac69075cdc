import BulkLoad.Json.Number
import BulkLoad.Text.Hex

/-!
# Reading JSON text

`Raw.read` reads a text into a tree that shows how far it is JSON. Where the text goes wrong, the
tree has a `broken` value, or an array or object that is not closed; a number beyond the largest
double and a string with half a surrogate pair have no value but do not stop the reading. So a
reader of the tree that looks at it from left to right can tell which comes first, a fault of the
text or a value of the wrong kind. `Json.parse?` is the strictest reader: the text must be a
document and nothing else, nested less than 128 deep.
-/

namespace BulkLoad.Json

/-- JSON text as far as it could be read. -/
inductive Raw
  | null
  | bool (b : Bool)
  | number (n : Option Number)
  | string (s : Option String)
  | array (items : List Raw) (closed : Bool)
  | object (fields : List (Option String × Raw)) (closed : Bool)
  | broken

instance : Inhabited Raw := ⟨.broken⟩

namespace Raw

/-- The four characters between the tokens of a document. -/
def isSpace (c : Char) : Bool :=
  c = ' ' || c = '\n' || c = '\t' || c = '\r'

/-! ## Strings -/

/-- What one escape or character of a string contributes: a character, or a 16-bit unit. -/
inductive Piece
  | char (c : Char)
  | unit (n : Nat)

/-- The character of a one-letter escape. -/
def simpleEscape? (c : Char) : Option Char :=
  match c with
  | '"' => some '"'
  | '\\' => some '\\'
  | '/' => some '/'
  | 'b' => some (Char.ofNat 8)
  | 'f' => some (Char.ofNat 12)
  | 'n' => some '\n'
  | 'r' => some '\r'
  | 't' => some '\t'
  | _ => none

/-- Reads a string after its opening quote: its pieces and the text after the closing quote. -/
def readPieces : List Char → Option (List Piece × List Char)
  | [] => none
  | '"' :: rest => some ([], rest)
  | '\\' :: 'u' :: a :: b :: c :: d :: rest => do
    let unit ← [a, b, c, d].foldlM (fun n digit => (Text.Hex.value? digit).map (16 * n + ·)) 0
    let (pieces, rest) ← readPieces rest
    return (.unit unit :: pieces, rest)
  | '\\' :: c :: rest => do
    let escaped ← simpleEscape? c
    let (pieces, rest) ← readPieces rest
    return (.char escaped :: pieces, rest)
  | c :: rest => do
    if c.toNat < 0x20 || c = '\\' then none
    else
      let (pieces, rest) ← readPieces rest
      return (.char c :: pieces, rest)

/-- Joins surrogate pairs; a surrogate without its partner has no character. -/
def joinPieces : List Piece → Option (List Char)
  | [] => some []
  | .char c :: rest => (joinPieces rest).map (c :: ·)
  | .unit high :: .unit low :: rest =>
    if 0xD800 ≤ high && high ≤ 0xDBFF then
      if 0xDC00 ≤ low && low ≤ 0xDFFF then
        (joinPieces rest).map
          (Char.ofNat (0x10000 + 1024 * (high - 0xD800) + (low - 0xDC00)) :: ·)
      else none
    else if 0xDC00 ≤ high && high ≤ 0xDFFF then none
    else (joinPieces (.unit low :: rest)).map (Char.ofNat high :: ·)
  | .unit n :: rest =>
    if 0xD800 ≤ n && n ≤ 0xDFFF then none else (joinPieces rest).map (Char.ofNat n :: ·)

/-! ## Numbers -/

/-- Reads the exponent part of a number, if there is one. -/
def readExponent (cs : List Char) : Option (Option Number.Exponent × List Char) :=
  match cs with
  | c :: rest =>
    if c = 'e' || c = 'E' then
      let (negative, rest) := match rest with
        | '+' :: rest => (false, rest)
        | '-' :: rest => (true, rest)
        | rest => (false, rest)
      let ds := rest.takeWhile Decimal.isDigit
      if ds.isEmpty then none else some (some ⟨negative, ds⟩, rest.dropWhile Decimal.isDigit)
    else some (none, cs)
  | [] => some (none, [])

/-- Reads a number after its sign; `none` when the text is no number. -/
def readNumber (negative : Bool) (cs : List Char) : Option (Option Number × List Char) := do
  let whole := cs.takeWhile Decimal.isDigit
  let rest := cs.dropWhile Decimal.isDigit
  if whole.isEmpty || (whole.length > 1 && whole.head? = some '0') then none
  else
    match rest with
    | '.' :: rest =>
      let places := rest.takeWhile Decimal.isDigit
      if places.isEmpty then none
      else
        let (exponent, rest) ← readExponent (rest.dropWhile Decimal.isDigit)
        return (Number.ofParts negative whole places (exponent.getD ⟨false, []⟩), rest)
    | rest =>
      match ← readExponent rest with
      | (some exponent, rest) => return (Number.ofParts negative whole [] exponent, rest)
      | (none, rest) => return (Number.ofIntegerDigits negative whole, rest)

/-! ## Values -/

/-- Reads a word whose first letter has been seen. -/
def readWord (value : Raw) (letters : List Char) (cs : List Char) : Raw × List Char :=
  if letters.isPrefixOf cs then (value, cs.drop letters.length) else (.broken, [])

mutual

/-- Reads one value; the fuel bounds the number of tokens. -/
def readValue : (fuel : Nat) → List Char → Raw × List Char
  | 0, _ => (.broken, [])
  | fuel + 1, cs =>
    match cs.dropWhile isSpace with
    | 'n' :: rest => readWord .null "ull".toList rest
    | 't' :: rest => readWord (.bool true) "rue".toList rest
    | 'f' :: rest => readWord (.bool false) "alse".toList rest
    | '"' :: rest =>
      match readPieces rest with
      | some (pieces, rest) => (.string ((joinPieces pieces).map String.ofList), rest)
      | none => (.broken, [])
    | '[' :: rest =>
      match rest.dropWhile isSpace with
      | ']' :: rest => (.array [] true, rest)
      | rest =>
        let (items, closed, rest) := readItems fuel rest
        (.array items closed, rest)
    | '\x7b' :: rest =>
      match rest.dropWhile isSpace with
      | '\x7d' :: rest => (.object [] true, rest)
      | rest =>
        let (fields, closed, rest) := readFields fuel rest
        (.object fields closed, rest)
    | '-' :: rest => ((readNumber true rest).map fun r => (.number r.1, r.2)).getD (.broken, [])
    | rest => ((readNumber false rest).map fun r => (.number r.1, r.2)).getD (.broken, [])

/-- Reads the items of an array up to its closing bracket. -/
def readItems : (fuel : Nat) → List Char → List Raw × Bool × List Char
  | 0, _ => ([], false, [])
  | fuel + 1, cs =>
    let (item, rest) := readValue fuel cs
    match rest.dropWhile isSpace with
    | ']' :: rest => ([item], true, rest)
    | ',' :: rest =>
      let (items, closed, rest) := readItems fuel rest
      (item :: items, closed, rest)
    | _ => ([item], false, [])

/-- Reads the fields of an object up to its closing brace. -/
def readFields : (fuel : Nat) → List Char → List (Option String × Raw) × Bool × List Char
  | 0, _ => ([], false, [])
  | fuel + 1, cs =>
    match cs.dropWhile isSpace with
    | '"' :: rest =>
      match readPieces rest with
      | none => ([], false, [])
      | some (pieces, rest) =>
        let name := (joinPieces pieces).map String.ofList
        match rest.dropWhile isSpace with
        | ':' :: rest =>
          let (value, rest) := readValue fuel rest
          match rest.dropWhile isSpace with
          | '\x7d' :: rest => ([(name, value)], true, rest)
          | ',' :: rest =>
            let (fields, closed, rest) := readFields fuel rest
            ((name, value) :: fields, closed, rest)
          | _ => ([(name, value)], false, [])
        | _ => ([(name, .broken)], false, [])
    | _ => ([], false, [])

end

/-- Reads a text: its value, and whether nothing but space follows it. -/
def read (s : String) : Raw × Bool :=
  let cs := s.toList
  let (value, rest) := readValue (2 * cs.length + 2) cs
  (value, rest.all isSpace)

/-! ## Looking at a tree -/

mutual

/-- Whether the text of a value is complete; what it stands for is not looked at. -/
def isComplete : Raw → Bool
  | .array items closed => allComplete items && closed
  | .object fields closed => allFieldsComplete fields && closed
  | .broken => false
  | _ => true

def allComplete : List Raw → Bool
  | [] => true
  | item :: rest => isComplete item && allComplete rest

def allFieldsComplete : List (Option String × Raw) → Bool
  | [] => true
  | (_, value) :: rest => isComplete value && allFieldsComplete rest

end

mutual

/-- The document that a value is, if it is complete, all its parts have a value, and at most `room`
arrays and objects are open at once. -/
def toJson? (room : Nat) : Raw → Option Json
  | .null => some .null
  | .bool b => some (.bool b)
  | .number n => n.map .number
  | .string s => s.map .string
  | .array items closed => do
    if room = 0 || !closed then none else return .array (← itemsToJson? (room - 1) items)
  | .object fields closed => do
    if room = 0 || !closed then none else return ofFields (← fieldsToJson? (room - 1) fields)
  | .broken => none

def itemsToJson? (room : Nat) : List Raw → Option (List Json)
  | [] => some []
  | item :: rest => do return (← toJson? room item) :: (← itemsToJson? room rest)

def fieldsToJson? (room : Nat) : List (Option String × Raw) → Option (List (String × Json))
  | [] => some []
  | (name, value) :: rest => do
    return (← name, ← toJson? room value) :: (← fieldsToJson? room rest)

end

mutual

/-- A document as a complete tree. -/
def ofJson : Json → Raw
  | .null => .null
  | .bool b => .bool b
  | .number n => .number (some n)
  | .string s => .string (some s)
  | .array items => .array (ofItems items) true
  | .object fields => .object (ofFields fields) true

def ofItems : List Json → List Raw
  | [] => []
  | item :: rest => ofJson item :: ofItems rest

def ofFields : List (String × Json) → List (Option String × Raw)
  | [] => []
  | (name, value) :: rest => (some name, ofJson value) :: ofFields rest

end

/-- The number of arrays and objects that may be open at once. -/
def maximalNesting : Nat := 127

end Raw

/-- Reads a text that is one document. -/
def parse? (s : String) : Option Json :=
  match Raw.read s with
  | (value, true) => value.toJson? Raw.maximalNesting
  | (_, false) => none

end BulkLoad.Json
