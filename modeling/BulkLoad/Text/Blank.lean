/-!
# Blank characters

The white space of Unicode (property `White_Space`), which is what surrounds a number, a time
zone or a line of input without being part of it. `trim` cuts it off both ends of a text,
`isBlankText` holds of a text that is nothing else.
-/

namespace BulkLoad.Text

/-- The code points with the property `White_Space`, as inclusive ranges in rising order. -/
def blankRanges : List (Nat × Nat) :=
  [(0x9, 0xD), (0x20, 0x20), (0x85, 0x85), (0xA0, 0xA0), (0x1680, 0x1680), (0x2000, 0x200A),
    (0x2028, 0x2029), (0x202F, 0x202F), (0x205F, 0x205F), (0x3000, 0x3000)]

/-- A character is blank when its code point lies in one of `blankRanges`. -/
def isBlank (c : Char) : Bool :=
  blankRanges.any fun range => range.1 ≤ c.toNat && c.toNat ≤ range.2

/-- The characters between the first and the last one that is not blank. -/
def trimChars (cs : List Char) : List Char :=
  ((cs.dropWhile isBlank).reverse.dropWhile isBlank).reverse

/-- The text without the blanks at its two ends. -/
def trim (s : String) : String :=
  String.ofList (trimChars s.toList)

/-- A text is blank when all its characters are, the empty text included. -/
def isBlankText (s : String) : Bool :=
  s.toList.all isBlank

/-- There are twenty-five blank characters. -/
example : (blankRanges.map fun range => range.2 + 1 - range.1).sum = 25 := by decide

end BulkLoad.Text
