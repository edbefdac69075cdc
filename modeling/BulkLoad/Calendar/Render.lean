import BulkLoad.Calendar.Instant
import BulkLoad.Calendar.Pattern
import BulkLoad.Calendar.Zone

/-!
# Writing instants by a pattern

`Pattern.render?` writes an instant as seen in a zone. A year outside 0 to 9999 always has a sign;
two-digit parts are written from one byte, whose tens run on past the digits in the character table
where the byte is 100 or more. Every piece of a pattern can be written except the lenient zone, so a
pattern has a written form exactly when it is `Renderable`.
-/

namespace BulkLoad.Calendar

/-- An instant as the calendar and the clock of a zone show it. -/
structure LocalTime where
  date : Date
  hour : Nat
  minute : Nat
  /-- 60 in a leap second. -/
  second : Nat
  nanos : Nat
  /-- Seconds since 1970-01-01T00:00:00Z, which no zone changes. -/
  timestamp : Int
  zone : Zone

/-- An instant in a zone. -/
def Instant.inZone (t : Instant) (zone : Zone) : LocalTime :=
  let seconds := t.seconds + zone.east
  let secondOfDay := (seconds % 86400).toNat
  { date := Date.ofDays (seconds / 86400)
    hour := secondOfDay / 3600
    minute := secondOfDay / 60 % 60
    second := secondOfDay % 60 + t.nanos / 1000000000
    nanos := t.nanos % 1000000000
    timestamp := t.seconds
    zone := zone }

namespace Pattern

/-- A number of at most 255 in two characters. -/
def twoPlaces (padding : Padding) (n : Nat) : List Char :=
  let ones := Char.ofNat ('0'.toNat + n % 10)
  let tens := Char.ofNat ('0'.toNat + n / 10)
  match n / 10, padding with
  | 0, .bare => [ones]
  | 0, .space => [' ', ones]
  | _, _ => [tens, ones]

/-- An integer in at least `width` characters; zeros stand after the sign, blanks before it. -/
def wide (padding : Padding) (width : Nat) (signed : Bool) (i : Int) : List Char :=
  let sign := if i < 0 then ['-'] else if signed then ['+'] else []
  let ds := Decimal.digits i.natAbs
  match padding with
  | .bare => sign ++ ds
  | .zero => sign ++ Decimal.padLeft '0' (width - sign.length) ds
  | .space => Decimal.padLeft ' ' width (sign ++ ds)

/-- A year; outside 0 to 9999 it has a sign and one place more. -/
def yearPlaces (padding : Padding) (year : Int) : List Char :=
  if 0 ≤ year && year ≤ 9999 then wide padding 4 false year else wide padding 5 true year

/-- The low byte of an integer. -/
def lowByte (i : Int) : Nat :=
  (i % 256).toNat

/-- The hour of a clock that counts to twelve. -/
def hourOfHalfDay (hour : Nat) : Nat :=
  if hour % 12 = 0 then 12 else hour % 12

/-- A part that is one number. -/
def numberText (t : LocalTime) (padding : Padding) : NumberField → List Char
  | .year => yearPlaces padding t.date.year
  | .century => twoPlaces padding (lowByte (t.date.year / 100))
  | .yearOfCentury => twoPlaces padding (lowByte (t.date.year % 100))
  | .isoYear => yearPlaces padding t.date.isoWeek.1
  | .isoYearOfCentury => twoPlaces padding (lowByte (t.date.isoWeek.1 % 100))
  | .quarter => Decimal.digits ((t.date.month - 1) / 3 + 1)
  | .month => twoPlaces padding t.date.month
  | .day => twoPlaces padding t.date.day
  | .weekFromSunday => twoPlaces padding (t.date.week t.date.daysFromSunday)
  | .weekFromMonday => twoPlaces padding (t.date.week t.date.daysFromMonday)
  | .isoWeek => twoPlaces padding t.date.isoWeek.2
  | .daysFromSunday => Decimal.digits t.date.daysFromSunday
  | .weekdayFromMonday => Decimal.digits (t.date.daysFromMonday + 1)
  | .ordinal => wide padding 3 false t.date.ordinal
  | .hour => twoPlaces padding t.hour
  | .hourOfHalfDay => twoPlaces padding (hourOfHalfDay t.hour)
  | .minute => twoPlaces padding t.minute
  | .second => twoPlaces padding t.second
  | .nanosecond => wide padding 9 false t.nanos
  | .timestamp => wide padding 9 false t.timestamp

/-- A name from a list, or its first three letters. -/
def nameText (names : List String) (index : Nat) (short : Bool) : List Char :=
  let name := ((names[index]?).getD "").toList
  if short then name.take 3 else name

/-- A fraction of a second in as few groups of three digits as it needs; nothing for none. -/
def fractionText (nanos : Nat) : List Char :=
  if nanos = 0 then []
  else if nanos % 1000000 = 0 then '.' :: Decimal.padded 3 (nanos / 1000000)
  else if nanos % 1000 = 0 then '.' :: Decimal.padded 6 (nanos / 1000)
  else '.' :: Decimal.padded 9 nanos

/-- The distance from UTC in a style. -/
def zoneText? (zone : Zone) : ZoneStyle → Option (List Char)
  | .plain => some (zone.clockText [])
  | .colon => some (zone.clockText [':'])
  | .seconds => some (zone.clockText [':'] ++ ':' :: Decimal.padded 2 zone.parts.2.2.2)
  | .hours => some (zone.parts.1 :: Decimal.padded 2 zone.parts.2.1)
  | .lenient => none

/-- Date, time and zone in the form of a text that names an instant. -/
def fullText (t : LocalTime) : List Char :=
  yearPlaces .zero t.date.year ++ '-' :: twoPlaces .zero t.date.month
    ++ '-' :: twoPlaces .zero t.date.day ++ 'T' :: twoPlaces .zero t.hour
    ++ ':' :: twoPlaces .zero t.minute ++ ':' :: twoPlaces .zero t.second
    ++ fractionText t.nanos ++ t.zone.clockText [':']

/-- The written form of one piece. -/
def itemText? (t : LocalTime) : Item → Option (List Char)
  | .literal c => some [c]
  | .number field padding => some (numberText t padding field)
  | .monthName short => some (nameText monthNames (t.date.month - 1) short)
  | .weekdayName short => some (nameText weekdayNames t.date.daysFromSunday short)
  | .halfDay upper =>
    some (if upper then if t.hour < 12 then ['A', 'M'] else ['P', 'M']
      else if t.hour < 12 then ['a', 'm'] else ['p', 'm'])
  | .fraction => some (fractionText t.nanos)
  | .fixedFraction digits point =>
    let ds := Decimal.padded digits (t.nanos / Nat.pow 10 (9 - digits))
    some (if point then '.' :: ds else ds)
  | .zoneName => some (t.zone.clockText [':'])
  | .zone style => zoneText? t.zone style
  | .full => some (fullText t)

/-- The written form of a pattern, if all its pieces have one. -/
def render? (t : LocalTime) : Pattern → Option (List Char)
  | [] => some []
  | item :: rest => do return (← itemText? t item) ++ (← render? t rest)

/-- No piece of the pattern is for reading only. -/
def Renderable (pattern : Pattern) : Prop :=
  Item.zone .lenient ∉ pattern

instance (pattern : Pattern) : Decidable pattern.Renderable :=
  inferInstanceAs (Decidable (_ ∉ _))

theorem isSome_itemText?_iff (t : LocalTime) (item : Item) :
    (itemText? t item).isSome ↔ item ≠ .zone .lenient := by
  cases item with
  | zone style => cases style <;> simp [itemText?, zoneText?]
  | _ => simp [itemText?]

theorem isSome_render?_iff (t : LocalTime) (pattern : Pattern) :
    (render? t pattern).isSome ↔ pattern.Renderable := by
  induction pattern with
  | nil => simp [render?, Renderable]
  | cons item rest ih =>
    have hi := isSome_itemText?_iff t item
    rw [ne_comm] at hi
    simp only [Renderable, List.mem_cons, not_or] at ih ⊢
    rw [← ih, ← ne_eq, ← hi, render?]
    cases itemText? t item <;> cases render? t rest <;> simp

end Pattern

end BulkLoad.Calendar
