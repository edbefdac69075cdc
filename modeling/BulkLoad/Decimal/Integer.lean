import BulkLoad.Decimal.Digits

/-!
# Reading integers

An integer is written as an optional sign and one or more ASCII digits. `readInteger low high`
reads one between two bounds; a minus sign is a sign only where the lower bound is negative.
Otherwise it tells why the text is refused: the first character that is no digit, or the first
digit at which the number leaves the bounds, whichever comes first.
-/

namespace BulkLoad.Decimal

/-- Why a text is not an integer between the bounds. -/
inductive IntegerFault
  | empty
  | notADigit
  | tooLarge
  | tooSmall
deriving DecidableEq, Repr

/-- The wording of a fault. -/
def IntegerFault.message : IntegerFault → String
  | .empty => "cannot parse integer from empty string"
  | .notADigit => "invalid digit found in string"
  | .tooLarge => "number too large to fit in target type"
  | .tooSmall => "number too small to fit in target type"

/-- Reads the digits of a number that is at most `limit`, after digits worth `sofar`; `beyond` is
the fault of a number above the limit. -/
def readDigits (limit : Nat) (beyond : IntegerFault) (sofar : Nat) :
    List Char → Except IntegerFault Nat
  | [] => .ok sofar
  | c :: rest =>
    if isDigit c then
      let sofar := 10 * sofar + digitValue c
      if sofar ≤ limit then readDigits limit beyond sofar rest else .error beyond
    else .error .notADigit

/-- Reads digits of which there must be one at least. -/
def readSomeDigits (limit : Nat) (beyond : IntegerFault) : List Char → Except IntegerFault Nat
  | [] => .error .notADigit
  | c :: rest => readDigits limit beyond 0 (c :: rest)

/-- Reads an integer between `low` and `high`, where `low ≤ 0 ≤ high`. -/
def readInteger (low high : Int) : List Char → Except IntegerFault Int
  | [] => .error .empty
  | c :: rest =>
    if c = '+' then do
      return ← readSomeDigits high.toNat .tooLarge rest
    else if c = '-' && low < 0 then do
      return - (← readSomeDigits low.natAbs .tooSmall rest : Int)
    else do
      return ← readSomeDigits high.toNat .tooLarge (c :: rest)

example : readInteger (-128) 127 "-128".toList = .ok (-128) := rfl
example : readInteger (-128) 127 "128x".toList = .error .tooLarge := rfl
example : readInteger 0 255 "-1".toList = .error .notADigit := rfl

end BulkLoad.Decimal
