import BulkLoad.MessagePack.Basic

/-!
# Reading MessagePack

`readValue` reads one value off the front of a sequence of bytes, whichever form of the format it
is written in, and gives the bytes after it. Binary data, single-precision numbers and extension
types do not occur in records and are refused. `decodeAll?` reads values until nothing is left.
-/

namespace BulkLoad.Packed

open MessagePack

/-- Takes a number of bytes off the front. -/
def take (n : Nat) (bytes : List UInt8) : Option (List UInt8 × List UInt8) :=
  if n ≤ bytes.length then some (bytes.splitAt n) else none

/-- Reads an unsigned number of the given number of bytes. -/
def readNat (width : Nat) (bytes : List UInt8) : Option (Nat × List UInt8) :=
  (take width bytes).map fun (head, rest) => (ofBigEndian head, rest)

/-- An integer that fits in 64 bits. -/
def ofInt? (i : Int) : Option Packed :=
  (Whole.ofInt? i).map .int

/-- Reads an unsigned integer. -/
def readUnsigned (width : Nat) (bytes : List UInt8) : Option (Packed × List UInt8) := do
  let (n, rest) ← readNat width bytes
  return (← ofInt? n, rest)

/-- Reads an integer in two's complement. -/
def readSigned (width : Nat) (bytes : List UInt8) : Option (Packed × List UInt8) := do
  let (n, rest) ← readNat width bytes
  let i : Int := if n < Nat.pow 256 width / 2 then n else n - Nat.pow 256 width
  return (← ofInt? i, rest)

/-- Reads the text of the given number of bytes. -/
def readText (n : Nat) (bytes : List UInt8) : Option (Packed × List UInt8) := do
  let (head, rest) ← take n bytes
  return (.text (← Text.Utf8.decode? head), rest)

/-- Reads something a number of times. -/
def readMany {α : Type} (read : List UInt8 → Option (α × List UInt8)) :
    Nat → List UInt8 → Option (List α × List UInt8)
  | 0, bytes => some ([], bytes)
  | n + 1, bytes => do
    let (a, rest) ← read bytes
    let (as, rest) ← readMany read n rest
    return (a :: as, rest)

/-- Reads a key and its value. -/
def readEntry (read : List UInt8 → Option (Packed × List UInt8)) (bytes : List UInt8) :
    Option ((Packed × Packed) × List UInt8) := do
  let (key, rest) ← read bytes
  let (value, rest) ← read rest
  return ((key, value), rest)

/-- Reads one value nested less than `depth` deep. -/
def readValue : (depth : Nat) → List UInt8 → Option (Packed × List UInt8)
  | 0, _ => none
  | _, [] => none
  | depth + 1, b :: rest =>
    let array (count : Nat) (bytes : List UInt8) : Option (Packed × List UInt8) :=
      (readMany (readValue depth) count bytes).map fun (items, rest) => (.array items, rest)
    let map (count : Nat) (bytes : List UInt8) : Option (Packed × List UInt8) :=
      (readMany (readEntry (readValue depth)) count bytes).map fun (entries, rest) =>
        (.map entries, rest)
    let counted (width : Nat) (read : Nat → List UInt8 → Option (Packed × List UInt8)) :
        Option (Packed × List UInt8) := do
      let (n, rest) ← readNat width rest
      read n rest
    let tag := b.toNat
    if tag < 0x80 then (ofInt? tag).map (·, rest)
    else if tag < 0x90 then map (tag - 0x80) rest
    else if tag < 0xA0 then array (tag - 0x90) rest
    else if tag < 0xC0 then readText (tag - 0xA0) rest
    else if 0xE0 ≤ tag then (ofInt? (tag - 256)).map (·, rest)
    else match tag with
      | 0xC0 => some (.nil, rest)
      | 0xC2 => some (.bool false, rest)
      | 0xC3 => some (.bool true, rest)
      | 0xCB => (readNat 8 rest).map fun (n, rest) => (.double ⟨UInt64.ofNat n⟩, rest)
      | 0xCC => readUnsigned 1 rest
      | 0xCD => readUnsigned 2 rest
      | 0xCE => readUnsigned 4 rest
      | 0xCF => readUnsigned 8 rest
      | 0xD0 => readSigned 1 rest
      | 0xD1 => readSigned 2 rest
      | 0xD2 => readSigned 4 rest
      | 0xD3 => readSigned 8 rest
      | 0xD9 => counted 1 readText
      | 0xDA => counted 2 readText
      | 0xDB => counted 4 readText
      | 0xDC => counted 2 array
      | 0xDD => counted 4 array
      | 0xDE => counted 2 map
      | 0xDF => counted 4 map
      | _ => none

/-- Reads values until at most `count` are read or nothing is left. -/
def readAll (depth : Nat) : (count : Nat) → List UInt8 → Option (List Packed)
  | _, [] => some []
  | 0, _ => none
  | count + 1, bytes => do
    let (value, rest) ← readValue depth bytes
    return value :: (← readAll depth count rest)

/-- The values that a sequence of bytes is the written form of. -/
def decodeAll? (bytes : List UInt8) : Option (List Packed) :=
  readAll (bytes.length + 1) bytes.length bytes

end BulkLoad.Packed
