/-!
# UTF-8

Texts as sequences of bytes. `encode` writes a text, `decode?` reads one back and refuses bytes
that are no UTF-8, `decodeLossy` reads any bytes: each longest run of bytes that begins a
character and cannot be completed becomes one replacement character.
-/

namespace BulkLoad.Text.Utf8

/-- The bytes of a text. -/
def encode (s : String) : List UInt8 :=
  s.toList.flatMap String.utf8EncodeChar

/-- The text that the bytes are the UTF-8 form of. -/
def decode? (bytes : List UInt8) : Option String :=
  String.fromUTF8? ⟨bytes.toArray⟩

/-- What stands for bytes that belong to no character. -/
def replacement : Char := Char.ofNat 0xFFFD

/-- A character of which the first bytes have been read: its leading bits and the ranges in which
the bytes that complete it must lie. -/
structure Pending where
  bits : Nat
  ranges : List (Nat × Nat)

/-- How the first byte of a character of several bytes goes on. -/
def Pending.ofLead? (b : Nat) : Option Pending :=
  let tail := (0x80, 0xBF)
  if 0xC2 ≤ b && b ≤ 0xDF then some ⟨b - 0xC0, [tail]⟩
  else if b = 0xE0 then some ⟨0, [(0xA0, 0xBF), tail]⟩
  else if b = 0xED then some ⟨0xD, [(0x80, 0x9F), tail]⟩
  else if 0xE1 ≤ b && b ≤ 0xEF then some ⟨b - 0xE0, [tail, tail]⟩
  else if b = 0xF0 then some ⟨0, [(0x90, 0xBF), tail, tail]⟩
  else if 0xF1 ≤ b && b ≤ 0xF3 then some ⟨b - 0xF0, [tail, tail, tail]⟩
  else if b = 0xF4 then some ⟨4, [(0x80, 0x8F), tail, tail]⟩
  else none

/-- A byte at which a character starts: what it writes and what it leaves open. -/
def start (b : Nat) : List Char × Option Pending :=
  if b < 0x80 then ([Char.ofNat b], none)
  else match Pending.ofLead? b with
    | some pending => ([], some pending)
    | none => ([replacement], none)

/-- One byte more, after the bytes of `pending`. -/
def advance (pending : Option Pending) (b : Nat) : List Char × Option Pending :=
  match pending with
  | some ⟨bits, (low, high) :: ranges⟩ =>
    if low ≤ b && b ≤ high then
      let bits := 64 * bits + (b - 0x80)
      if ranges.isEmpty then ([Char.ofNat bits], none) else ([], some ⟨bits, ranges⟩)
    else
      let (written, pending) := start b
      (replacement :: written, pending)
  | _ => start b

/-- Reads on from an open character. -/
def decodeLossyFrom (pending : Option Pending) : List UInt8 → List Char
  | [] => if pending.isSome then [replacement] else []
  | b :: rest =>
    let (written, pending) := advance pending b.toNat
    written ++ decodeLossyFrom pending rest

/-- Reads any bytes, with replacement characters where they are no UTF-8. -/
def decodeLossy (bytes : List UInt8) : String :=
  String.ofList (decodeLossyFrom none bytes)

example : decodeLossy [0x61, 0xE6, 0x97, 0x62, 0xC3, 0xA9, 0xF0] = "a�bé�" := by decide +kernel

end BulkLoad.Text.Utf8
