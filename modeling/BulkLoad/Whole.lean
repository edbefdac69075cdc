/-!
# Whole numbers that documents and records hold exactly

A document and a packed record hold the integers from `-2 ^ 63` to `2 ^ 64 - 1` exactly: those
that fit in 64 bits, signed or unsigned. A `Whole` is such an integer; a 64-bit signed integer is
one by `Whole.ofInt64`.
-/

namespace BulkLoad

/-- An integer that fits in 64 bits, signed or unsigned. -/
structure Whole where
  val : Int
  lower : -0x8000000000000000 ≤ val
  upper : val < 0x10000000000000000
deriving DecidableEq

namespace Whole

instance : Inhabited Whole := ⟨⟨0, by decide, by decide⟩⟩

@[ext] theorem ext {a b : Whole} (h : a.val = b.val) : a = b := by
  cases a; cases b; simp_all

/-- The integer, if it fits. -/
def ofInt? (i : Int) : Option Whole :=
  if h : -0x8000000000000000 ≤ i ∧ i < 0x10000000000000000 then some ⟨i, h.1, h.2⟩ else none

/-- A signed 64-bit integer. -/
def ofInt64 (i : Int64) : Whole :=
  ⟨i.toInt, i.le_toInt, Int.lt_trans i.toInt_lt (by decide)⟩

/-- The signed 64-bit integer, if it is one. -/
def toInt64? (n : Whole) : Option Int64 :=
  if n.val < 0x8000000000000000 then some (Int64.ofInt n.val) else none

@[simp] theorem val_ofInt64 (i : Int64) : (ofInt64 i).val = i.toInt := rfl

@[simp] theorem ofInt?_val (n : Whole) : ofInt? n.val = some n := by
  unfold ofInt?
  rw [dif_pos ⟨n.lower, n.upper⟩]

@[simp] theorem toInt64?_ofInt64 (i : Int64) : (ofInt64 i).toInt64? = some i := by
  have := i.toInt_lt
  simp [toInt64?]
  omega

end Whole

end BulkLoad
