import BulkLoad.Record.Target

/-!
# Partition keys

Every record has a partition key: whole seconds since 1970, rounded down. It comes from a cell,
where a long counts units of time and a timestamp is itself, or from a generator, which gives a
fixed number again and again or runs through a range and starts over.
-/

namespace BulkLoad.Record

/-- The key of a record under which its partition key stands. -/
def timeKey : String := "time"

/-- The unit of time that a long counts. -/
inductive TimeUnit
  | second
  | milli
  | micro
  | nano
deriving DecidableEq, Repr

namespace TimeUnit

/-- The number of units in a second. -/
def perSecond : TimeUnit → Int
  | .second => 1
  | .milli => 1000
  | .micro => 1000000
  | .nano => 1000000000

def name : TimeUnit → String
  | .second => "sec"
  | .milli => "milli"
  | .micro => "micro"
  | .nano => "nano"

def named : List (String × TimeUnit) :=
  [.second, .milli, .micro, .nano].map fun unit => (unit.name, unit)

def decoder : Json.Decoder TimeUnit :=
  .enumeration named none

/-- The partition key that a cell holds. -/
def seconds (unit : TimeUnit) (column : String) : Cell → Except EncodeError Int64
  | .long i => .ok (Int64.ofInt (i.toInt / unit.perSecond))
  | .timestamp t => .ok t.seconds64
  | .null => .error (.nullTime column)
  | .boolean _ => .error (.invalidTime column .boolean)
  | .double _ => .error (.invalidTime column .double)
  | .string _ => .error (.invalidTime column .string)
  | .json _ => .error (.invalidTime column .json)

end TimeUnit

/-- Partition keys that do not come from the rows. -/
inductive TimeValue
  | fixed (value : Int64)
  | incremental (low high : Int64)
deriving DecidableEq, Repr

namespace TimeValue

/-- The bounds of a signed 64-bit integer in a document. -/
def int64 : Json.Decoder Int64 := fun room raw =>
  (Json.Decoder.integer (-0x8000000000000000) 0x7FFFFFFFFFFFFFFF room raw).map Int64.ofInt

def decoder : Json.Decoder TimeValue :=
  .tagged "mode"
    [("fixed_time", fun room raw =>
        (Json.Decoder.record 0 [.must "value" int64 fun _ value => value] room raw).map .fixed),
      ("incremental_time", fun room raw =>
        (Json.Decoder.record ((0, 0) : Int64 × Int64)
          [.must "from" int64 fun range low => (low, range.2),
            .must "to" int64 fun range high => (range.1, high)] room raw).map
          fun range => .incremental range.1 range.2)]

def toJson : TimeValue → Json
  | .fixed value => .object [("mode", .string "fixed_time"), ("value", .int value.toInt)]
  | .incremental low high => .object [("mode", .string "incremental_time"),
    ("from", .int low.toInt), ("to", .int high.toInt)]

end TimeValue

/-- A source of partition keys. -/
inductive TimeGenerator
  | fixed (value : Int64)
  | cycle (low high next : Int64)
deriving DecidableEq, Repr

namespace TimeGenerator

/-- The next partition key, and the generator after it. -/
def next : TimeGenerator → Int64 × TimeGenerator
  | .fixed value => (value, .fixed value)
  | .cycle low high current =>
    (current, .cycle low high (if high ≤ current then low else current + 1))

/-- The next keys, as many as asked for. -/
def take : Nat → TimeGenerator → List Int64
  | 0, _ => []
  | n + 1, generator => generator.next.1 :: take n generator.next.2

end TimeGenerator

end BulkLoad.Record
