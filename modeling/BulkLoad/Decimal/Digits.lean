/-!
# Decimal digits

Whole numbers as decimal text. `text` writes a number without leading zeros and `value` reads
digits back, so `value (digits n) = n`. `padded` fills a short number up with zeros on the left and
never shortens a long one. `divRound` is the quotient of two whole numbers rounded to the nearest,
where a half goes to the even neighbour.
-/

namespace BulkLoad.Decimal

/-- The ASCII digits, and no other character, are digits. -/
def isDigit (c : Char) : Bool :=
  '0' ≤ c && c ≤ '9'

/-- The number that a digit stands for. -/
def digitValue (c : Char) : Nat :=
  c.toNat - '0'.toNat

/-- The digits of a number, most significant first; zero has one digit. -/
def digits (n : Nat) : List Char :=
  Nat.toDigits 10 n

/-- A number in decimal. -/
def text (n : Nat) : String :=
  String.ofList (digits n)

/-- A possibly negative number in decimal; only a negative one has a sign. -/
def signedText (i : Int) : String :=
  if i < 0 then "-" ++ text i.natAbs else text i.natAbs

/-- The number that a row of digits stands for. -/
def value (cs : List Char) : Nat :=
  Nat.ofDigitChars 10 cs 0

@[simp] theorem value_digits (n : Nat) : value (digits n) = n :=
  Nat.ofDigitChars_ten_toDigits

/-- The characters `cs`, filled up with `fill` on the left to at least `width`. -/
def padLeft (fill : Char) (width : Nat) (cs : List Char) : List Char :=
  List.replicate (width - cs.length) fill ++ cs

/-- The digits of a number, filled up with zeros on the left to at least `width`. -/
def padded (width n : Nat) : List Char :=
  padLeft '0' width (digits n)

@[simp] theorem value_padded (width n : Nat) : value (padded width n) = n := by
  rw [padded, padLeft, value, Nat.ofDigitChars_append, Nat.ofDigitChars_replicate_zero,
    Nat.mul_zero]
  exact value_digits n

/-- The nearest whole number to `num / den`; a half goes to the even neighbour. -/
def divRound (num den : Nat) : Nat :=
  let quotient := num / den
  let rest := 2 * (num % den)
  if rest < den || (rest = den && quotient % 2 = 0) then quotient else quotient + 1

example : (List.range 7).map (divRound · 2) = [0, 0, 1, 2, 2, 2, 3] := by decide

end BulkLoad.Decimal
