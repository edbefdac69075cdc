import BulkLoad.Text.Hex
import BulkLoad.Text.Utf8

/-!
# Percent encoding

A name becomes one segment of a request path by writing each byte of its UTF-8 form that is not
unreserved as `%` and two capital hexadecimal digits. The unreserved bytes are the ASCII letters
and digits and `-`, `_`, `.`, `~`. `decodeChars` reads a segment back: it undoes every escape and
refuses a `%` that is not followed by two hexadecimal digits.
-/

namespace BulkLoad.Text.Percent

/-- The characters that stand for themselves in a path segment. -/
def isUnreserved (c : Char) : Bool :=
  c.isAlphanum || c = '-' || c = '_' || c = '.' || c = '~'

/-- The capital hexadecimal digit of a number below sixteen. -/
def hexDigit (n : Nat) : Char :=
  if n < 10 then Char.ofNat ('0'.toNat + n) else Char.ofNat ('A'.toNat + (n - 10))

/-- The written form of one byte. -/
def encodeByte (b : UInt8) : List Char :=
  let c := Char.ofNat b.toNat
  if isUnreserved c then [c] else ['%', hexDigit (b.toNat / 16), hexDigit (b.toNat % 16)]

/-- The written form of a sequence of bytes. -/
def encodeBytes (bytes : List UInt8) : List Char :=
  bytes.flatMap encodeByte

/-- A text as one path segment. -/
def encode (s : String) : String :=
  String.ofList (encodeBytes (Utf8.encode s))

/-- The bytes that a path segment stands for, if all its escapes are complete. -/
def decodeChars : List Char → Option (List UInt8)
  | [] => some []
  | '%' :: high :: low :: rest => do
    let h ← Hex.value? high
    let l ← Hex.value? low
    return UInt8.ofNat (16 * h + l) :: (← decodeChars rest)
  | c :: rest => do
    if c = '%' then none
    else return String.utf8EncodeChar c ++ (← decodeChars rest)

/-- The text that a path segment stands for, if its escapes are complete and give UTF-8. -/
def decode (segment : String) : Option String := do
  let bytes ← decodeChars segment.toList
  Utf8.decode? bytes

example : encode "a b/c" = "a%20b%2Fc" := by decide +kernel
example : decode "a%20b%2Fc" = some "a b/c" := by decide +kernel

end BulkLoad.Text.Percent
