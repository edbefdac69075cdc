import BulkLoad.Double.Read
import BulkLoad.Json.Raw
import BulkLoad.Toml.Text

/-!
# Values without parts

Numbers, moments and the words `true`, `false`, `inf` and `nan` of a TOML text. Digits may have
single underscores between them; a decimal has no leading zeros. No setting is a moment, so a
moment is read as an object that no setting accepts (`moment`).
-/

namespace BulkLoad.Toml

/-- A character of a number, a moment or a word. -/
def isTokenChar (c : Char) : Bool :=
  c.isAlphanum || c = '_' || c = '+' || c = '-' || c = '.' || c = ':'

/-! ## Numbers -/

/-- Removes the underscores from digits, each of which stands between two digits. -/
def joinDigits? (isDigit : Char → Bool) : List Char → Option (List Char)
  | [] => none
  | [c] => if isDigit c then some [c] else none
  | c :: '_' :: rest => if isDigit c then (joinDigits? isDigit rest).map (c :: ·) else none
  | c :: rest => if isDigit c then (joinDigits? isDigit rest).map (c :: ·) else none

/-- The digits of a decimal without leading zeros. -/
def wholeDigits? (cs : List Char) : Option (List Char) := do
  let ds ← joinDigits? Decimal.isDigit cs
  if ds.head? = some '0' && cs.length ≠ 1 then none else some ds

/-- The number that digits stand for in a base. -/
def inBase? (base : Nat) (cs : List Char) : Option Nat := do
  let ds ← joinDigits? (fun c => (Text.Hex.value? c).any (· < base)) cs
  return ds.foldl (fun sofar c => base * sofar + (Text.Hex.value? c).getD 0) 0

/-- An integer that fits in 64 bits. -/
def integer64? (i : Int) : Option Json :=
  if -0x8000000000000000 ≤ i && i < 0x8000000000000000 then some (Json.int i) else none

/-- The sign of a number, and what follows it. -/
def splitSign : List Char → Bool × List Char
  | '-' :: rest => (true, rest)
  | '+' :: rest => (false, rest)
  | cs => (false, cs)

/-- A number with a point or an exponent, without its sign. -/
def fractional? (cs : List Char) : Option (List Char) := do
  let isExponent := fun c : Char => c = 'e' || c = 'E'
  let mantissa := cs.takeWhile (!isExponent ·)
  let exponent := cs.dropWhile (!isExponent ·)
  let whole ← wholeDigits? (mantissa.takeWhile (· ≠ '.'))
  let places ← match mantissa.dropWhile (· ≠ '.') with
    | [] => pure []
    | _ :: places => (joinDigits? Decimal.isDigit places).map ('.' :: ·)
  let power ← match exponent with
    | [] => pure []
    | _ :: '-' :: ds => (joinDigits? Decimal.isDigit ds).map ('e' :: '-' :: ·)
    | _ :: '+' :: ds => (joinDigits? Decimal.isDigit ds).map ('e' :: ·)
    | _ :: ds => (joinDigits? Decimal.isDigit ds).map ('e' :: ·)
  if places.isEmpty && power.isEmpty then none else return whole ++ places ++ power

/-- A number. One beyond the largest double is refused. -/
def number? (token : List Char) : Option Json :=
  match token with
  | '0' :: 'x' :: ds => (inBase? 16 ds).bind fun n => integer64? n
  | '0' :: 'o' :: ds => (inBase? 8 ds).bind fun n => integer64? n
  | '0' :: 'b' :: ds => (inBase? 2 ds).bind fun n => integer64? n
  | token =>
    let (negative, cs) := splitSign token
    let ofDouble (x : Double) : Json := .number (.double (if negative then x.neg else x))
    if cs = "inf".toList then some (ofDouble (Double.infinity false))
    else if cs = "nan".toList then some (ofDouble Double.nan)
    else match wholeDigits? cs with
      | some ds => integer64? (if negative then -(Decimal.value ds : Int) else Decimal.value ds)
      | none => do
        let x ← (Double.ofText (← fractional? cs)).toOption
        if x.isFinite || negative then return ofDouble x else none

/-! ## Moments -/

/-- A number of exactly as many digits, between two bounds. -/
def field? (digits low high : Nat) (cs : List Char) : Option Nat :=
  if cs.length = digits && cs.all Decimal.isDigit then
    let n := Decimal.value cs
    if low ≤ n && n ≤ high then some n else none
  else none

/-- The number of days of a month. -/
def daysOfMonth (year month : Nat) : Nat :=
  if month = 2 then
    if year % 4 = 0 && (year % 100 ≠ 0 || year % 400 = 0) then 29 else 28
  else if month = 4 || month = 6 || month = 9 || month = 11 then 30
  else 31

/-- Year, month and day with hyphens between them. -/
def isDate (cs : List Char) : Bool :=
  cs.length = 10 && cs[4]? = some '-' && cs[7]? = some '-' &&
    (do
      let year ← field? 4 0 9999 (cs.take 4)
      let month ← field? 2 1 12 ((cs.drop 5).take 2)
      field? 2 1 (daysOfMonth year month) (cs.drop 8)).isSome

/-- Hour and minute with a colon between them. -/
def isHourMinute (cs : List Char) : Bool :=
  cs.length = 5 && cs[2]? = some ':' && (field? 2 0 23 (cs.take 2)).isSome
    && (field? 2 0 59 (cs.drop 3)).isSome

/-- A time of day, perhaps with a fraction of a second; the text after it is the zone. -/
def timeZone? (cs : List Char) : Option (List Char) :=
  if isHourMinute (cs.take 5) && cs[5]? = some ':' &&
      (field? 2 0 60 ((cs.drop 6).take 2)).isSome then
    match cs.drop 8 with
    | '.' :: rest =>
      if (rest.takeWhile Decimal.isDigit).isEmpty then none
      else some (rest.dropWhile Decimal.isDigit)
    | rest => some rest
  else none

/-- No zone, the letter Z, or hours and minutes east or west. -/
def isZone : List Char → Bool
  | [] | ['Z'] | ['z'] => true
  | sign :: rest => (sign = '+' || sign = '-') && isHourMinute rest

/-- A date, a time of day, or both with the letter T between them and perhaps a zone after them. -/
def isMoment (cs : List Char) : Bool :=
  isDate cs || timeZone? cs = some [] ||
    (isDate (cs.take 10) && (cs[10]? = some 'T' || cs[10]? = some 't')
      && (timeZone? (cs.drop 11)).any isZone)

/-- What stands for a moment. -/
def moment (cs : List Char) : Json :=
  .object [("moment", .string (String.ofList cs))]

/-! ## Tokens -/

/-- Takes a token. A date and a time of day with one blank between them are one token. -/
def takeToken (cs : List Char) : List Char × List Char :=
  let token := cs.takeWhile isTokenChar
  let rest := cs.dropWhile isTokenChar
  match rest with
  | ' ' :: c :: rest' =>
    if isDate token && Decimal.isDigit c then
      (token ++ 'T' :: (c :: rest').takeWhile isTokenChar, (c :: rest').dropWhile isTokenChar)
    else (token, rest)
  | _ => (token, rest)

/-- The value of a token. -/
def scalarOf? (token : List Char) : Option Json :=
  if token = "true".toList then some (.bool true)
  else if token = "false".toList then some (.bool false)
  else if isMoment token then some (moment token)
  else number? token

end BulkLoad.Toml
