/-!
# Hexadecimal text

Every byte is written as two lower-case digits, the higher one first. Digits of either case are
read.
-/

namespace BulkLoad.Text.Hex

/-- The lower-case digit of a number below sixteen. -/
def digit (n : Nat) : Char :=
  if n < 10 then Char.ofNat ('0'.toNat + n) else Char.ofNat ('a'.toNat + (n - 10))

/-- The value of a digit of either case. -/
def value? (c : Char) : Option Nat :=
  if '0' ≤ c && c ≤ '9' then some (c.toNat - '0'.toNat)
  else if 'A' ≤ c && c ≤ 'F' then some (c.toNat - 'A'.toNat + 10)
  else if 'a' ≤ c && c ≤ 'f' then some (c.toNat - 'a'.toNat + 10)
  else none

/-- The digits of a byte. -/
def digits (b : UInt8) : List Char :=
  [digit (b.toNat / 16), digit (b.toNat % 16)]

/-- The digits of bytes. -/
def encode (bytes : List UInt8) : String :=
  String.ofList (bytes.flatMap digits)

/-- Reads pairs of digits. -/
def decodeChars : List Char → Option (List UInt8)
  | [] => some []
  | high :: low :: rest => do
    let high ← value? high
    let low ← value? low
    let bytes ← decodeChars rest
    return UInt8.ofNat (16 * high + low) :: bytes
  | [_] => none

/-- Reads bytes. -/
def decode? (s : String) : Option (List UInt8) :=
  decodeChars s.toList

example : encode [0x82, 0xa1] = "82a1" := by decide +kernel
example : decode? "82A1" = some [0x82, 0xa1] := by decide +kernel
example : decode? "8" = none := by decide +kernel

end BulkLoad.Text.Hex
