import BulkLoad.Json.Basic

/-!
# Number literals of documents

An integer literal that fits in 64 bits is that integer; minus zero is a double. Any other literal
is a double: the leading digits, as long as they fit in 64 bits, are rounded to a double, and the
power of ten that the point, the exponent and dropped digits of the integer part make up is
applied by one multiplication or division with the double nearest to it, after steps of `1e308`
for very small numbers. A literal beyond the largest double is out of range.
-/

namespace BulkLoad.Json.Number

/-- The bound of the digits that are kept exactly. -/
def digitsLimit : Nat := 0xFFFFFFFFFFFFFFFF

/-- Takes digits up to the first that would carry the number over the limit. -/
def takeFitting (sofar : Nat) : List Char → Nat × List Char
  | [] => (sofar, [])
  | c :: rest =>
    let next := 10 * sofar + Decimal.digitValue c
    if next ≤ digitsLimit then takeFitting next rest else (sofar, c :: rest)

/-- The double nearest to a power of ten. -/
def powerOfTen (n : Nat) : Double :=
  Double.ofRatio false (Nat.pow 10 n) 1

/-- A double times a power of ten; `none` when it is out of range. -/
def scale (x : Double) (e : Int) : Option Double :=
  if h : e < -308 then
    if x.isZero then some x else scale (x.div (powerOfTen 308)) (e + 308)
  else if 308 < e then
    if x.isZero then some x else none
  else if 0 ≤ e then
    let product := x.mul (powerOfTen e.toNat)
    if product.isFinite then some product else none
  else some (x.div (powerOfTen (-e).toNat))
termination_by (-e).toNat
decreasing_by omega

/-- An exponent part: its sign and its digits. -/
structure Exponent where
  negative : Bool
  digits : List Char

/-- The greatest exponent that is looked at; above it only its sign counts. -/
def exponentLimit : Nat := 0x7FFFFFFF

/-- The value of a literal with a point, an exponent, or too many digits. -/
def ofParts (negative : Bool) (whole places : List Char) (exponent : Exponent) : Option Number :=
  let (kept, dropped) := takeFitting 0 whole
  let (significand, unread) := takeFitting kept places
  let start : Int := dropped.length - (places.length - unread.length : Nat)
  let e := Decimal.value exponent.digits
  let scaled :=
    if exponentLimit < e then
      if significand ≠ 0 && !exponent.negative then none else some (Double.zero false)
    else scale (Double.ofNat significand) (if exponent.negative then start - e else start + e)
  scaled.map fun x => .double (if negative then x.neg else x)

/-- The value of an integer literal. -/
def ofIntegerDigits (negative : Bool) (ds : List Char) : Option Number :=
  let n := Decimal.value ds
  if digitsLimit < n then ofParts negative ds [] ⟨false, []⟩
  else if !negative then (Whole.ofInt? n).map .whole
  else if 0 < n && n ≤ 0x8000000000000000 then (Whole.ofInt? (-n)).map .whole
  else some (.double (Double.ofNat n).neg)

end BulkLoad.Json.Number
