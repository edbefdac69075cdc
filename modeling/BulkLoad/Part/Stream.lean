/-!
# The bytes of part files

A part file is a stream in the gzip format. The records are put into stored blocks, which take up
little more space than the records themselves; a block is written when it is full, and the head
comes with the first record.
-/

namespace BulkLoad.Part

/-- One step of the check sum for a bit that is shifted out. -/
def checkStep (sum : UInt32) : UInt32 :=
  if sum &&& 1 = 1 then (sum >>> 1) ^^^ 0xEDB88320 else sum >>> 1

/-- Eight steps. -/
def checkSteps (sum : UInt32) : UInt32 :=
  checkStep (checkStep (checkStep (checkStep (checkStep (checkStep (checkStep (checkStep sum)))))))

/-- The check sum after a byte. -/
def checkByte (sum : UInt32) (byte : UInt8) : UInt32 :=
  checkSteps ((sum ^^^ byte.toUInt32) &&& 0xFF) ^^^ (sum >>> 8)

example : checkByte 0xFFFFFFFF 97 ^^^ 0xFFFFFFFF = 0xE8B7BE43 := by decide

/-- A stream as far as it is written. -/
structure Stream where
  /-- The bytes that are in no block yet. -/
  held : ByteArray := .empty
  sum : UInt32 := 0xFFFFFFFF
  length : Nat := 0
  /-- The number of bytes that reached the file. -/
  written : Nat := 0

namespace Stream

/-- The head of a stream. -/
def head : ByteArray :=
  .mk #[0x1F, 0x8B, 8, 0, 0, 0, 0, 0, 0, 255]

/-- A number as bytes, the lowest one first. -/
def littleEndian : (width : Nat) → (n : Nat) → List UInt8
  | 0, _ => []
  | width + 1, n => UInt8.ofNat (n % 256) :: littleEndian width (n / 256)

/-- The most bytes of a block. -/
def blockSize : Nat := 0xFFFF

/-- A stored block. -/
def block (final : Bool) (bytes : ByteArray) : ByteArray :=
  let size := littleEndian 2 bytes.size
  let head := (if final then 1 else 0) :: size ++ size.map (· ^^^ 0xFF)
  .append (.mk head.toArray) bytes

/-- Whether nothing was written yet. -/
def isFresh (s : Stream) : Bool :=
  s.written = 0

/-- Takes a byte; the bytes to write are added to `out`. -/
def push (s : Stream) (out : ByteArray) (byte : UInt8) : Stream × ByteArray :=
  let held := s.held.push byte
  let s := { s with sum := checkByte s.sum byte, length := s.length + 1 }
  if held.size < blockSize then ({ s with held }, out)
  else ({ s with held := .empty }, out.append (block false held))

/-- Takes bytes; the result has what is to be written now. -/
def add (s : Stream) (bytes : List UInt8) : Stream × ByteArray :=
  let start := if s.isFresh then head else .empty
  let (s, out) := bytes.foldl (fun state byte => state.1.push state.2 byte) (s, start)
  ({ s with written := s.written + out.size }, out)

/-- What is to be written at the end. -/
def finish (s : Stream) : ByteArray :=
  let start := if s.isFresh then head else .empty
  let tail := littleEndian 4 (s.sum ^^^ 0xFFFFFFFF).toNat ++ littleEndian 4 s.length
  (start.append (block true s.held)).append (.mk tail.toArray)

end Stream

end BulkLoad.Part
