import BulkLoad.Decimal.Digits

/-!
# Names of parts

The parts of a session are numbered from one on. A name has the number after a stem, in at least
eight digits, so that the names of one session sort by number below 10⁸.
-/

namespace BulkLoad.Part

/-- The name of a part. -/
def name (stem : String) (number : Nat) : String :=
  stem ++ "_" ++ String.ofList (Decimal.padded 8 number)

/-- What the names of part files end in. -/
def fileEnding : String := ".msgpack.gz"

/-- The name of the file of a part, where `tag` tells it from others of the same name. -/
def fileName (name tag : String) : String :=
  name ++ "." ++ tag ++ fileEnding

/-- The most bytes of a file name. -/
def longestFileName : Nat := 255

/-- Whether a directory can have a file of that name. -/
def isFileName (name : String) : Bool :=
  name.utf8ByteSize ≤ longestFileName && name.toList.all fun c => c ≠ '/' && c.toNat ≠ 0

example : name "x" 3 = "x_00000003" := by decide +kernel
example : name "x" 123456789 = "x_123456789" := by decide +kernel

end BulkLoad.Part
