import BulkLoad.Calendar.Date

/-!
# Patterns for dates and times

A pattern is a text in which a percent sign and a letter stand for a part of a date or a time.
Between the two, `-`, `_` or `0` ask for no padding, padding with blanks, or padding with zeros;
this is possible for the parts that are one number. `Pattern.parse?` reads a pattern and refuses a
percent sign that is not followed by one of these directives.
-/

namespace BulkLoad.Calendar

/-- What a short number is filled up with. -/
inductive Padding
  | bare
  | zero
  | space
deriving DecidableEq, Repr

/-- The parts of a date or a time that are one number. -/
inductive NumberField
  | year
  | century
  | yearOfCentury
  | isoYear
  | isoYearOfCentury
  | quarter
  | month
  | day
  | weekFromSunday
  | weekFromMonday
  | isoWeek
  | daysFromSunday
  | weekdayFromMonday
  | ordinal
  | hour
  | hourOfHalfDay
  | minute
  | second
  | nanosecond
  | timestamp
deriving DecidableEq, Repr

/-- How the distance from UTC is written. -/
inductive ZoneStyle
  | plain
  | colon
  | seconds
  | hours
  /-- A style for reading only: nothing can be written in it. -/
  | lenient
deriving DecidableEq, Repr

/-- One piece of a pattern. -/
inductive Item
  | literal (c : Char)
  | number (field : NumberField) (padding : Padding)
  | monthName (short : Bool)
  | weekdayName (short : Bool)
  | halfDay (upper : Bool)
  /-- A fraction of a second with as few groups of three digits as it needs, after a point. -/
  | fraction
  /-- A fraction of a second of a fixed number of digits, after a point or not. -/
  | fixedFraction (digits : Nat) (point : Bool)
  | zoneName
  | zone (style : ZoneStyle)
  /-- Date, time and zone in the form of a text that names an instant. -/
  | full
deriving DecidableEq, Repr

/-- The pieces of a pattern. -/
abbrev Pattern : Type := List Item

namespace Pattern

open BulkLoad.Calendar.NumberField BulkLoad.Calendar.Padding

def text (s : String) : Pattern :=
  s.toList.map .literal

/-- Hours, minutes and seconds of a clock. -/
def clock : Pattern :=
  [.number hour zero, .literal ':', .number minute zero, .literal ':', .number second zero]

/-- Month, day and year as in American dates. -/
def slashDate : Pattern :=
  [.number month zero, .literal '/', .number day zero, .literal '/', .number yearOfCentury zero]

/-- The directives of one letter. -/
def letter? : Char → Option Pattern
  | 'A' => some [.weekdayName false]
  | 'B' => some [.monthName false]
  | 'C' => some [.number century zero]
  | 'D' => some slashDate
  | 'F' =>
    some [.number year zero, .literal '-', .number month zero, .literal '-', .number day zero]
  | 'G' => some [.number isoYear zero]
  | 'H' => some [.number hour zero]
  | 'I' => some [.number hourOfHalfDay zero]
  | 'M' => some [.number minute zero]
  | 'P' => some [.halfDay false]
  | 'R' => some [.number hour zero, .literal ':', .number minute zero]
  | 'S' => some [.number second zero]
  | 'T' => some clock
  | 'U' => some [.number weekFromSunday zero]
  | 'V' => some [.number isoWeek zero]
  | 'W' => some [.number weekFromMonday zero]
  | 'X' => some clock
  | 'Y' => some [.number year zero]
  | 'Z' => some [.zoneName]
  | 'a' => some [.weekdayName true]
  | 'b' => some [.monthName true]
  | 'c' => some ([.weekdayName true, .literal ' ', .monthName true, .literal ' ', .number day space,
      .literal ' '] ++ clock ++ [.literal ' ', .number year zero])
  | 'd' => some [.number day zero]
  | 'e' => some [.number day space]
  | 'f' => some [.number nanosecond zero]
  | 'g' => some [.number isoYearOfCentury zero]
  | 'h' => some [.monthName true]
  | 'j' => some [.number ordinal zero]
  | 'k' => some [.number hour space]
  | 'l' => some [.number hourOfHalfDay space]
  | 'm' => some [.number month zero]
  | 'n' => some [.literal '\n']
  | 'p' => some [.halfDay true]
  | 'q' => some [.number quarter bare]
  | 'r' => some [.number hourOfHalfDay zero, .literal ':', .number minute zero, .literal ':',
      .number second zero, .literal ' ', .halfDay true]
  | 's' => some [.number timestamp bare]
  | 't' => some [.literal '\t']
  | 'u' => some [.number weekdayFromMonday bare]
  | 'v' => some [.number day space, .literal '-', .monthName true, .literal '-', .number year zero]
  | 'w' => some [.number daysFromSunday bare]
  | 'x' => some slashDate
  | 'y' => some [.number yearOfCentury zero]
  | 'z' => some [.zone .plain]
  | '+' => some [.full]
  | '%' => some [.literal '%']
  | _ => none

/-- The padding that a character asks for. -/
def padding? : Char → Option Padding
  | '-' => some .bare
  | '0' => some .zero
  | '_' => some .space
  | _ => none

/-- The number of digits that a character asks for in a fraction of a second. -/
def fractionDigits? : Char → Option Nat
  | '3' => some 3
  | '6' => some 6
  | '9' => some 9
  | _ => none

/-- A directive of one letter with a padding of its own. -/
def padded? (padding : Padding) (c : Char) : Option Pattern :=
  match letter? c with
  | some [.number field _] => some [.number field padding]
  | _ => none

/-- The directive after a percent sign, and the text after it. -/
def directive? : List Char → Option (Pattern × List Char)
  | ':' :: ':' :: ':' :: 'z' :: rest => some ([.zone .hours], rest)
  | ':' :: ':' :: 'z' :: rest => some ([.zone .seconds], rest)
  | ':' :: 'z' :: rest => some ([.zone .colon], rest)
  | '#' :: 'z' :: rest => some ([.zone .lenient], rest)
  | '.' :: 'f' :: rest => some ([.fraction], rest)
  | '.' :: c :: 'f' :: rest => (fractionDigits? c).map fun n => ([.fixedFraction n true], rest)
  | c :: rest =>
    match padding? c, fractionDigits? c, rest with
    | some padding, _, d :: rest => (padded? padding d).map (·, rest)
    | none, some n, 'f' :: rest => some ([.fixedFraction n false], rest)
    | _, _, _ => (letter? c).map (·, rest)
  | [] => none

theorem length_lt_of_directive? {cs rest : List Char} {items : Pattern}
    (h : directive? cs = some (items, rest)) : rest.length < cs.length := by
  unfold directive? at h
  split at h
  case h_6 =>
    obtain ⟨_, -, hread⟩ := Option.map_eq_some_iff.1 h
    cases hread
    simp only [List.length_cons]
    omega
  case h_7 =>
    split at h
    · obtain ⟨_, -, hread⟩ := Option.map_eq_some_iff.1 h
      cases hread
      simp only [List.length_cons]
      omega
    · cases h
      simp only [List.length_cons]
      omega
    · obtain ⟨_, -, hread⟩ := Option.map_eq_some_iff.1 h
      cases hread
      exact Nat.lt_succ_self _
  case h_8 => cases h
  all_goals
    cases h
    simp only [List.length_cons]
    omega

/-- Reads a pattern. -/
def read? : List Char → Option Pattern
  | [] => some []
  | '%' :: rest =>
    match _h : directive? rest with
    | some (items, rest) => (read? rest).map (items ++ ·)
    | none => none
  | c :: rest => (read? rest).map (.literal c :: ·)
termination_by cs => cs.length
decreasing_by
  · have := length_lt_of_directive? _h
    simp
    omega
  · simp

/-- Reads the text of a pattern. -/
def parse? (s : String) : Option Pattern :=
  read? s.toList

end Pattern

end BulkLoad.Calendar
