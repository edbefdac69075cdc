import BulkLoad.MessagePack.Basic

/-!
# Writing MessagePack

Each value is written in the smallest form the format has for it: integers from a single byte on,
texts, arrays and maps with the shortest form of their length. A non-negative integer takes an
unsigned form, a negative one a signed form; a double always takes nine bytes.
-/

namespace BulkLoad.Packed

open MessagePack

/-- The written form of an integer. -/
def encodeInt (i : Int) : List UInt8 :=
  let n := i.toNat
  let complement (bits : Nat) : Nat := (Nat.pow 2 bits + i).toNat
  if 0 ≤ i then
    if n < 0x80 then bigEndian 1 n
    else if n < 256 then 0xCC :: bigEndian 1 n
    else if n < 65536 then 0xCD :: bigEndian 2 n
    else if n < 0x100000000 then 0xCE :: bigEndian 4 n
    else 0xCF :: bigEndian 8 n
  else if -32 ≤ i then bigEndian 1 (complement 8)
  else if -128 ≤ i then 0xD0 :: bigEndian 1 (complement 8)
  else if -32768 ≤ i then 0xD1 :: bigEndian 2 (complement 16)
  else if -0x80000000 ≤ i then 0xD2 :: bigEndian 4 (complement 32)
  else 0xD3 :: bigEndian 8 (complement 64)

/-- What precedes a text of the given number of bytes. -/
def textHead (n : Nat) : List UInt8 :=
  if n < 32 then bigEndian 1 (0xA0 + n)
  else if n < 256 then 0xD9 :: bigEndian 1 n
  else if n < 65536 then 0xDA :: bigEndian 2 n
  else 0xDB :: bigEndian 4 n

/-- What precedes an array of the given number of items. -/
def arrayHead (n : Nat) : List UInt8 :=
  if n < 16 then bigEndian 1 (0x90 + n)
  else if n < 65536 then 0xDC :: bigEndian 2 n
  else 0xDD :: bigEndian 4 n

/-- What precedes a map of the given number of entries. -/
def mapHead (n : Nat) : List UInt8 :=
  if n < 16 then bigEndian 1 (0x80 + n)
  else if n < 65536 then 0xDE :: bigEndian 2 n
  else 0xDF :: bigEndian 4 n

/-- The written form of a text. -/
def encodeText (s : String) : List UInt8 :=
  let bytes := Text.Utf8.encode s
  textHead bytes.length ++ bytes

mutual

/-- The written form of a value. -/
def encode : Packed → List UInt8
  | .nil => [0xC0]
  | .bool b => [if b then 0xC3 else 0xC2]
  | .int n => encodeInt n.val
  | .double x => 0xCB :: bigEndian 8 x.bits.toNat
  | .text s => encodeText s
  | .array items => arrayHead items.length ++ encodeItems items
  | .map entries => mapHead entries.length ++ encodeEntries entries

def encodeItems : List Packed → List UInt8
  | [] => []
  | item :: rest => encode item ++ encodeItems rest

def encodeEntries : List (Packed × Packed) → List UInt8
  | [] => []
  | (key, value) :: rest => encode key ++ encode value ++ encodeEntries rest

end

/-- The written form of values one after another, with nothing between them. -/
def encodeAll (values : List Packed) : List UInt8 :=
  values.flatMap encode

end BulkLoad.Packed
