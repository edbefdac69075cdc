import BulkLoad.Double.Basic
import BulkLoad.Text.Utf8
import BulkLoad.Whole

/-!
# MessagePack values

The values that records are made of, and the bytes that numbers and texts are written with.
`bigEndian width n` are the `width` low bytes of a number, the highest first, and `ofBigEndian`
reads them back.
-/

namespace BulkLoad

/-- A packed value. A map is the list of its entries in their order. -/
inductive Packed
  | nil
  | bool (b : Bool)
  | int (n : Whole)
  | double (x : Double)
  | text (s : String)
  | array (items : List Packed)
  | map (entries : List (Packed × Packed))

namespace Packed

instance : Inhabited Packed := ⟨.nil⟩

/-- A signed 64-bit integer. -/
def ofInt64 (i : Int64) : Packed :=
  .int (Whole.ofInt64 i)

end Packed

namespace MessagePack

/-- The low bytes of a number, the highest of them first. -/
def bigEndian : (width : Nat) → (n : Nat) → List UInt8
  | 0, _ => []
  | width + 1, n => UInt8.ofNat (n / Nat.pow 256 width) :: bigEndian width n

/-- The number that bytes stand for, the highest first. -/
def ofBigEndian (bytes : List UInt8) : Nat :=
  bytes.foldl (fun sofar b => 256 * sofar + b.toNat) 0

theorem length_bigEndian (width n : Nat) : (bigEndian width n).length = width := by
  induction width with
  | zero => rfl
  | succ width ih => simp [bigEndian, ih]

end MessagePack

end BulkLoad
