import BulkLoad.Calendar.Instant
import BulkLoad.Calendar.Zone

/-!
# Instants in texts

A text names an instant as `YYYY-MM-DD`, a `T` or a blank, `HH:MM:SS`, an optional fraction of a
second, and `Z` or a distance from UTC `+HH:MM`. The sixtieth second of a minute is a leap second;
digits of the fraction after the ninth are not looked at.
-/

namespace BulkLoad.Calendar.Instant

/-- Reads exactly `n` digits. -/
def digits? (n : Nat) (cs : List Char) : Option (Nat × List Char) :=
  let ds := cs.take n
  if ds.length = n && ds.all Decimal.isDigit then some (Decimal.value ds, cs.drop n) else none

/-- Drops one given character. -/
def expect (c : Char) : List Char → Option (List Char)
  | d :: rest => if d = c then some rest else none
  | [] => none

/-- Reads `YYYY-MM-DD`. -/
def date? (cs : List Char) : Option (Date × List Char) := do
  let (year, cs) ← digits? 4 cs
  let (month, cs) ← digits? 2 (← expect '-' cs)
  let (day, cs) ← digits? 2 (← expect '-' cs)
  return (← Date.ofParts? year month day, cs)

/-- Reads `HH:MM:SS`, as hours, minutes and seconds; there may be a second 60. -/
def clock? (cs : List Char) : Option ((Nat × Nat × Nat) × List Char) := do
  let (hours, cs) ← digits? 2 cs
  let (minutes, cs) ← digits? 2 (← expect ':' cs)
  let (seconds, cs) ← digits? 2 (← expect ':' cs)
  if hours < 24 && minutes < 60 && seconds ≤ 60 then return ((hours, minutes, seconds), cs)
  else none

/-- Reads an optional fraction of a second, in nanoseconds. -/
def fraction? : List Char → Option (Nat × List Char)
  | '.' :: rest =>
    let ds := rest.takeWhile Decimal.isDigit
    let kept := ds.take 9
    if ds.isEmpty then none
    else some (Decimal.value kept * Nat.pow 10 (9 - kept.length), rest.dropWhile Decimal.isDigit)
  | cs => some (0, cs)

/-- Reads a zone to the end of the text. -/
def offset? : List Char → Option Int
  | ['Z'] => some 0
  | ['z'] => some 0
  | cs => do
    let (seconds, rest) ← Zone.readOffset? (expect ':') cs
    if rest.isEmpty && seconds.natAbs < 86400 then return seconds else none

/-- The instant that a text names. -/
def ofText? (s : String) : Option Instant := do
  let (date, cs) ← date? s.toList
  let cs ← match cs with
    | c :: rest => if c = 'T' || c = 't' || c = ' ' then some rest else none
    | [] => none
  let ((hours, minutes, seconds), cs) ← clock? cs
  let (nanos, cs) ← fraction? cs
  let east ← offset? cs
  let (seconds, nanos) := if seconds = 60 then (59, nanos + 1000000000) else (seconds, nanos)
  ofEpoch? (86400 * date.toDays + (3600 * hours + 60 * minutes + seconds : Nat) - east) nanos

example : (ofText? "1970-01-01T00:00:01.5+00:00").map (fun t => (t.seconds, t.nanos))
    = some (1, 500000000) := by decide +kernel

end BulkLoad.Calendar.Instant
