import BulkLoad.Decimal.Digits

/-!
# Numbers in the 64-bit binary format

A `Double` is its 64 bits: a sign, eleven bits of exponent and 52 bits of fraction. A finite one
stands for `± significand · 2 ^ exponent`. `ofRatio` finds the double nearest to a quotient of
whole numbers, with a half going to the even significand; the arithmetic here is done on exact
quotients and rounded once, which is what the format prescribes for each operation.
-/

namespace BulkLoad

/-- A number in the 64-bit binary format, as its bit pattern. -/
structure Double where
  bits : UInt64
deriving DecidableEq, Repr, Inhabited

namespace Double

/-- The sign bit. -/
def negative (x : Double) : Bool :=
  x.bits.toNat / 0x8000000000000000 = 1

/-- The eleven bits of the exponent field. -/
def exponentField (x : Double) : Nat :=
  x.bits.toNat / 0x10000000000000 % 2048

/-- The 52 bits of the fraction field. -/
def fraction (x : Double) : Nat :=
  x.bits.toNat % 0x10000000000000

/-- An exponent field of all ones marks what is no number, and the infinities. -/
def isFinite (x : Double) : Bool :=
  x.exponentField ≠ 2047

/-- What is no number: all ones in the exponent and a fraction. -/
def isNaN (x : Double) : Bool :=
  x.exponentField = 2047 && x.fraction ≠ 0

/-- Zero of either sign. -/
def isZero (x : Double) : Bool :=
  x.exponentField = 0 && x.fraction = 0

/-- The whole number `m` of a finite value `± m · 2 ^ q`. -/
def significand (x : Double) : Nat :=
  if x.exponentField = 0 then x.fraction else 0x10000000000000 + x.fraction

/-- The exponent `q` of a finite value `± m · 2 ^ q`. -/
def exponent (x : Double) : Int :=
  if x.exponentField = 0 then -1074 else x.exponentField - 1075

/-- A sign and the 63 bits below it. -/
def ofMagnitude (negative : Bool) (magnitude : Nat) : Double :=
  ⟨UInt64.ofNat (if negative then 0x8000000000000000 + magnitude else magnitude)⟩

def zero (negative : Bool) : Double :=
  ofMagnitude negative 0

def infinity (negative : Bool) : Double :=
  ofMagnitude negative (2047 * 0x10000000000000)

def nan : Double :=
  ofMagnitude false (2047 * 0x10000000000000 + 0x8000000000000)

/-- The quotient `num / den` in units of `2 ^ q`, as numerator and denominator. -/
def inUnits (num den : Nat) (q : Int) : Nat × Nat :=
  (num * Nat.pow 2 (-q).toNat, den * Nat.pow 2 q.toNat)

/-- The exponent of the unit in which a positive quotient has 53 binary digits before the point,
and at least the exponent of the smallest positive double. -/
def unitExponent (num den : Nat) : Int :=
  let q : Int := max ((num.log2 : Int) - den.log2 - 52) (-1074)
  let (n, d) := inUnits num den q
  if n / d < 0x10000000000000 then max (q - 1) (-1074) else q

/-- The double nearest to `± num / den`; `den` is positive. The bits of a rounded significand `m`
in units of `2 ^ q` are `(q + 1074) · 2 ^ 52 + m`, also where rounding carries into the next power
of two; from the pattern of infinity on, the quotient is out of range. -/
def ofRatio (negative : Bool) (num den : Nat) : Double :=
  if num = 0 then zero negative
  else
    let q := unitExponent num den
    let (n, d) := inUnits num den q
    let magnitude := (q + 1074).toNat * 0x10000000000000 + Decimal.divRound n d
    if magnitude < 2047 * 0x10000000000000 then ofMagnitude negative magnitude
    else infinity negative

/-- The double nearest to `± m · 2 ^ q`. -/
def ofScaled (negative : Bool) (m : Nat) (q : Int) : Double :=
  let (n, d) := inUnits m 1 (-q)
  ofRatio negative n d

def ofNat (n : Nat) : Double :=
  ofRatio false n 1

/-- The double nearest to an integer. -/
def ofInt (i : Int) : Double :=
  ofRatio (i < 0) i.natAbs 1

/-- A finite value in units of `2 ^ q`, where `q` is at most its exponent. -/
def signedUnits (x : Double) (q : Int) : Int :=
  let m : Int := x.significand * Nat.pow 2 (x.exponent - q).toNat
  if x.negative then -m else m

/-- The integer that a finite value is cut to, toward zero. -/
def truncate (x : Double) : Int :=
  let m : Int := x.significand * Nat.pow 2 x.exponent.toNat / Nat.pow 2 (-x.exponent).toNat
  if x.negative then -m else m

/-- The greatest integer that is not above a finite value. -/
def floor (x : Double) : Int :=
  let q := min x.exponent 0
  x.signedUnits q / Nat.pow 2 (-q).toNat

/-- The integer nearest to a finite value; a half goes away from zero. -/
def round (x : Double) : Int :=
  let unit := Nat.pow 2 (-x.exponent).toNat
  let m : Int := (2 * (x.significand * Nat.pow 2 x.exponent.toNat) + unit) / (2 * unit)
  if x.negative then -m else m

/-- The sum of two finite values. -/
def add (x y : Double) : Double :=
  let q := min x.exponent y.exponent
  let sum := x.signedUnits q + y.signedUnits q
  if sum = 0 then zero (x.negative && y.negative) else ofScaled (sum < 0) sum.natAbs q

/-- The value with the other sign. -/
def neg (x : Double) : Double :=
  ofMagnitude (!x.negative) (x.bits.toNat % 0x8000000000000000)

/-- The product of two finite values. -/
def mul (x y : Double) : Double :=
  ofScaled (x.negative != y.negative) (x.significand * y.significand) (x.exponent + y.exponent)

/-- The quotient of two finite values; `y` is not zero. -/
def div (x y : Double) : Double :=
  let q := x.exponent - y.exponent
  let (n, d) := inUnits x.significand y.significand (-q)
  ofRatio (x.negative != y.negative) n d

example : ofRatio false 1 10 = ⟨0x3FB999999999999A⟩ := by decide +kernel
example : ofRatio true 1 (Nat.pow 10 400) = ⟨0x8000000000000000⟩ := by decide +kernel
example : (ofRatio false 5 2).floor = 2 ∧ (ofRatio true 5 2).floor = -3 := by decide +kernel
example : (ofRatio false 5 2).round = 3 ∧ (ofRatio true 5 2).round = -3 := by decide +kernel

end Double

end BulkLoad
