import BulkLoad.Text.Blank
import BulkLoad.Decimal.Digits

/-!
# Time zones

A zone is a fixed number of seconds east of UTC, less than a day in either direction. It is written
as one of the names of UTC in any case, or as a sign, two digits of hours, any number of colons and
blanks, and two digits of minutes; what follows the minutes is not looked at.
-/

namespace BulkLoad.Calendar

/-- A fixed distance from UTC. -/
structure Zone where
  /-- Seconds east of UTC. -/
  east : Int
deriving DecidableEq, Repr

namespace Zone

def utc : Zone := ⟨0⟩

/-- The names of UTC. -/
def utcNames : List String := ["UTC", "GMT", "Z"]

/-- The value of two digits, and what follows them. -/
def twoDigits? : List Char → Option (Nat × List Char)
  | a :: b :: rest =>
    if Decimal.isDigit a && Decimal.isDigit b then some (Decimal.value [a, b], rest) else none
  | _ => none

/-- Whether a sign is a minus, if it is a sign; the typographic minus is one. -/
def isMinus? (c : Char) : Option Bool :=
  if c = '+' then some false
  else if c = '-' || c = Char.ofNat 0x2212 then some true
  else none

/-- Reads the distance of a zone, where `separators` drops what may stand between hours and minutes.
-/
def readOffset? (separators : List Char → Option (List Char)) :
    List Char → Option (Int × List Char)
  | [] => none
  | c :: rest => do
    let minus ← isMinus? c
    let (hours, rest) ← twoDigits? rest
    let (minutes, rest) ← twoDigits? (← separators rest)
    if 60 ≤ minutes then none
    else
      let seconds : Int := 3600 * hours + 60 * minutes
      return (if minus then -seconds else seconds, rest)

/-- Drops colons and blanks. -/
def dropSeparators (cs : List Char) : Option (List Char) :=
  some (cs.dropWhile fun c => c = ':' || Text.isBlank c)

/-- Reads a zone. -/
def parse? (s : String) : Option Zone := do
  let cs := Text.trimChars s.toList
  if utcNames.contains (String.ofList (cs.map Char.toUpper)) then return utc
  let (seconds, _) ← readOffset? dropSeparators cs
  if seconds.natAbs < 86400 then return ⟨seconds⟩ else none

/-- The sign of a zone, and its hours, minutes and seconds. -/
def parts (z : Zone) : Char × Nat × Nat × Nat :=
  let n := z.east.natAbs
  (if z.east < 0 then '-' else '+', n / 3600, n / 60 % 60, n % 60)

/-- The hours and minutes of a zone with `separator` between them. -/
def clockText (separator : List Char) (z : Zone) : List Char :=
  let (sign, hours, minutes, _) := z.parts
  sign :: Decimal.padded 2 hours ++ separator ++ Decimal.padded 2 minutes

end Zone

end BulkLoad.Calendar
