import BulkLoad.Double.Text

/-!
# Sizes for readers

A number of bytes in the largest unit that it reaches, with two decimal places above the byte. Each
unit is 1024 of the one before it.
-/

namespace BulkLoad.Text.ByteSize

/-- The units above the byte. -/
def units : List String :=
  ["KB", "MB", "GB", "TB"]

/-- One step to the next unit. -/
def step (size : Double) : Double :=
  size.div (Double.ofNat 1024)

/-- A size in the first unit, or in a larger one that it reaches. -/
def inUnits (size : Double) : List String → String
  | [] => ""
  | [unit] => size.fixedText 2 ++ " " ++ unit
  | unit :: larger :: rest =>
    if size.truncate < 1024 then size.fixedText 2 ++ " " ++ unit
    else inUnits (step size) (larger :: rest)

/-- The text of a number of bytes. -/
def text (bytes : Nat) : String :=
  if bytes < 1024 then Decimal.text bytes ++ " B" else inUnits (step (Double.ofNat bytes)) units

example : text 1023 = "1023 B" := by decide +kernel
example : text 1536 = "1.50 KB" := by decide +kernel
example : text 1048575 = "1024.00 KB" := by decide +kernel

end BulkLoad.Text.ByteSize
