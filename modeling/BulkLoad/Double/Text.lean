import BulkLoad.Double.Shortest

/-!
# Writing doubles

Two written forms of the shortest decimal. `plainText` never uses an exponent and writes a whole
number without a point: it is the text of a double cell. `documentText` is the form inside a JSON
document: a finite double always has a point or an exponent, and an exponent is used below `1e-5`
and from `1e16` on. `fixedText` writes a fixed number of decimal places, a half going to the even
neighbour.
-/

namespace BulkLoad.Double

/-- The digits of a decimal without exponent; a point only where there are decimal places. -/
def Scientific.positional (d : Scientific) : List Char :=
  let cs := Decimal.digits d.digits
  if 0 ≤ d.exponent then cs ++ List.replicate d.exponent.toNat '0'
  else
    let places := (-d.exponent).toNat
    let cs := Decimal.padLeft '0' (places + 1) cs
    cs.take (cs.length - places) ++ '.' :: cs.drop (cs.length - places)

/-- The sign of a written number. -/
def signChars (x : Double) : List Char :=
  if x.negative then ['-'] else []

/-- The text of a double cell: shortest digits, a tie goes up, no exponent. -/
def plainText (x : Double) : String :=
  if x.isNaN then "NaN"
  else String.ofList <| x.signChars ++
    if !x.isFinite then "inf".toList
    else if x.isZero then ['0']
    else (x.shortest .up).positional

/-- A decimal with one digit before the point and an exponent that has a sign. -/
def Scientific.exponential (d : Scientific) : List Char :=
  let cs := Decimal.digits d.digits
  let exponent := d.exponent + (cs.length - 1 : Nat)
  let sign := if exponent < 0 then '-' else '+'
  cs.take 1 ++ (if cs.length = 1 then [] else '.' :: cs.drop 1)
    ++ 'e' :: sign :: Decimal.digits exponent.natAbs

/-- The form of a finite double in a JSON document: shortest digits, a tie goes to the even digit.
-/
def documentText (x : Double) : String :=
  String.ofList <| x.signChars ++
    if x.isZero then "0.0".toList
    else
      let d := x.shortest .even
      let leading := d.exponent + ((Decimal.digits d.digits).length - 1 : Nat)
      if leading < -5 || 16 ≤ leading then d.exponential
      else if 0 ≤ d.exponent then d.positional ++ ".0".toList
      else d.positional

/-- A finite double with `places` decimal places. -/
def fixedText (places : Nat) (x : Double) : String :=
  let (num, den) := inUnits x.significand 1 (-x.exponent)
  let units := Decimal.divRound (num * Nat.pow 10 places) den
  String.ofList (x.signChars ++ Scientific.positional ⟨units, -(places : Int)⟩)

example : plainText ⟨0x4004000000000000⟩ = "2.5" := by decide +kernel
example : documentText ⟨0x4341C37937E08000⟩ = "1e+16" := by decide +kernel
example : documentText ⟨0x430C6BF526340000⟩ = "1000000000000000.0" := by decide +kernel
example : fixedText 2 ⟨0x3FF0000000000000⟩ = "1.00" := by decide +kernel

end BulkLoad.Double
