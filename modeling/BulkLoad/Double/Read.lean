import BulkLoad.Double.Basic

/-!
# Reading doubles

A decimal is read as the nearest double. `ofDecimal` takes digits and a power of ten; a power so
large or so small that the result is infinite or zero anyway is not computed. `ofText` reads the
text of a number: an optional sign, then digits with an optional point and an optional exponent,
or one of the words `inf`, `infinity`, `nan` in any case.
-/

namespace BulkLoad.Double

/-- The double nearest to `± m · 10 ^ e`. -/
def ofDecimal (negative : Bool) (m : Nat) (e : Int) : Double :=
  let leading := e + (Decimal.digits m).length
  if m = 0 || leading < -400 then zero negative
  else if 400 < leading then infinity negative
  else ofRatio negative (m * Nat.pow 10 e.toNat) (Nat.pow 10 (-e).toNat)

/-- Why a text is no number. -/
inductive TextFault
  | empty
  | invalid
deriving DecidableEq, Repr

/-- The wording of a fault. -/
def TextFault.message : TextFault → String
  | .empty => "cannot parse float from empty string"
  | .invalid => "invalid float literal"

/-- Reads an exponent: nothing, or `e` with an optional sign and at least one digit. -/
def readExponent : List Char → Option Int
  | [] => some 0
  | c :: rest =>
    if c = 'e' || c = 'E' then
      let (negative, ds) := match rest with
        | '-' :: ds => (true, ds)
        | '+' :: ds => (false, ds)
        | ds => (false, ds)
      if ds.isEmpty || !ds.all Decimal.isDigit then none
      else some (if negative then -(Decimal.value ds : Int) else Decimal.value ds)
    else none

/-- Reads digits with an optional point and an optional exponent; one digit there must be. -/
def readDecimal (negative : Bool) (cs : List Char) : Option Double :=
  let whole := cs.takeWhile Decimal.isDigit
  let rest := cs.dropWhile Decimal.isDigit
  let (places, rest) := match rest with
    | '.' :: rest => (rest.takeWhile Decimal.isDigit, rest.dropWhile Decimal.isDigit)
    | rest => ([], rest)
  if whole.isEmpty && places.isEmpty then none
  else (readExponent rest).map fun e =>
    ofDecimal negative (Decimal.value (whole ++ places)) (e - places.length)

/-- Reads a number without its sign. -/
def readMagnitude (negative : Bool) (cs : List Char) : Option Double :=
  let word := String.ofList (cs.map Char.toLower)
  if word = "inf" || word = "infinity" then some (infinity negative)
  else if word = "nan" then some (if negative then nan.neg else nan)
  else readDecimal negative cs

/-- Reads the text of a number. -/
def ofText (cs : List Char) : Except TextFault Double :=
  match cs with
  | [] => .error .empty
  | '-' :: rest => (readMagnitude true rest).elim (.error .invalid) .ok
  | '+' :: rest => (readMagnitude false rest).elim (.error .invalid) .ok
  | rest => (readMagnitude false rest).elim (.error .invalid) .ok

example : (ofText "-.5e1".toList).toOption = some ⟨0xC014000000000000⟩ := by decide +kernel
example : (ofText ".".toList).toOption = none := by decide +kernel

end BulkLoad.Double
