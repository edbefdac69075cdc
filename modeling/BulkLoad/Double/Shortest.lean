import BulkLoad.Double.Basic

/-!
# The shortest decimal that reads back

Every finite double is the nearest double to all the reals of an interval around it; the ends of
the interval belong to it when the significand is even. `shortest` looks for a decimal in that
interval on the grids of one, two, three, … significant digits. The first grid that has one wins;
of the two grid points next to the value the nearer wins, and `TieRule` decides between equally
near ones. Seventeen digits are always enough.
-/

namespace BulkLoad.Double

/-- The decimal `digits · 10 ^ exponent`. -/
structure Scientific where
  digits : Nat
  exponent : Int
deriving DecidableEq, Repr

/-- Which of two equally near decimals is taken. -/
inductive TieRule
  | up
  | even
deriving DecidableEq, Repr

/-- The reals that round to a double, as fractions over one denominator. -/
structure Interval where
  low : Nat
  value : Nat
  high : Nat
  denominator : Nat
  closed : Bool

/-- The interval of a positive finite double. Below a power of two the neighbour is only half as
far away. -/
def interval (x : Double) : Interval :=
  let m := x.significand
  let below := if x.fraction = 0 && x.exponentField > 1 then 1 else 2
  let (unit, denominator) := inUnits 1 1 (2 - x.exponent)
  { low := (4 * m - below) * unit
    value := 4 * m * unit
    high := (4 * m + 2) * unit
    denominator := denominator
    closed := m % 2 = 0 }

/-- The exponent of the leading decimal digit of a positive quotient. -/
def leadingExponent (num den : Nat) : Int :=
  if den ≤ num then (Decimal.digits (num / den)).length - 1
  else
    let inverse := den / num
    let power := (Decimal.digits inverse).length
    if num * Nat.pow 10 (power - 1) ≥ den then -((power - 1 : Nat) : Int) else -(power : Int)

/-- The numerator and the denominator of a quotient in units of `10 ^ p`. -/
def inDecimalUnits (num den : Nat) (p : Int) : Nat × Nat :=
  (num * Nat.pow 10 (-p).toNat, den * Nat.pow 10 p.toNat)

/-- Whether `digits · 10 ^ p` lies in the interval. -/
def Interval.contains (i : Interval) (digits : Nat) (p : Int) : Bool :=
  let (point, scale) := inDecimalUnits (digits * i.denominator) 1 (-p)
  let low := i.low * scale
  let high := i.high * scale
  if i.closed then low ≤ point && point ≤ high else low < point && point < high

/-- The nearer of the two grid points next to the value that lie in the interval. -/
def Interval.nearest? (i : Interval) (tie : TieRule) (p : Int) : Option Nat :=
  let (num, den) := inDecimalUnits i.value i.denominator p
  let down := num / den
  let up := down + 1
  let rest := 2 * (num % den)
  let downFirst := rest < den || (rest = den && tie = .even && down % 2 = 0)
  match i.contains down p, i.contains up p with
  | true, true => some (if downFirst then down else up)
  | true, false => some down
  | false, true => some up
  | false, false => none

/-- Drops zeros at the end of the digits. -/
def Scientific.normalize (d : Scientific) : Scientific :=
  if d.digits ≠ 0 ∧ d.digits % 10 = 0 then normalize ⟨d.digits / 10, d.exponent + 1⟩ else d
termination_by d.digits

/-- Looks through the grids of rising fineness, the first of which is `10 ^ p`. -/
def Interval.search (i : Interval) (tie : TieRule) : (fuel : Nat) → (p : Int) → Scientific
  | 0, p =>
    ⟨(inDecimalUnits i.value i.denominator p).1 / (inDecimalUnits i.value i.denominator p).2, p⟩
  | fuel + 1, p =>
    match i.nearest? tie p with
    | some digits => Scientific.normalize ⟨digits, p⟩
    | none => i.search tie fuel (p - 1)

/-- The shortest decimal that reads back as a positive finite double. -/
def shortest (tie : TieRule) (x : Double) : Scientific :=
  let i := x.interval
  i.search tie 17 (leadingExponent i.value i.denominator)

example : shortest .even ⟨0x3FB999999999999A⟩ = ⟨1, -1⟩ := by decide +kernel
example : shortest .even ⟨1⟩ = ⟨5, -324⟩ := by decide +kernel

end BulkLoad.Double
