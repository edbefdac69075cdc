import BulkLoad.Json.Raw

/-!
# Reading values out of documents

A `Decoder` reads a value of a fixed kind out of JSON text. It looks at the text from left to
right and stops at the first thing that is wrong: the text itself (`malformed`), or a value of the
wrong kind, out of range, missing or given twice (`mismatch`). A value of the wrong kind is read to
its end before it is refused, but an array or object in its place is refused at once. Fields that
a record does not know are skipped: they need be complete, nothing else. A record may also be
written as the array of its fields in their order.
-/

namespace BulkLoad.Json

/-- What can be wrong with a text that should hold a value. -/
inductive Fault
  | malformed
  | mismatch
deriving DecidableEq, Repr

/-- Reads a value; the number says how many arrays and objects may still be opened. -/
abbrev Decoder (α : Type) : Type := Nat → Raw → Except Fault α

namespace Decoder

/-- The fault of a value that is of another kind than asked for. -/
def wrongKind : Raw → Fault
  | .number none | .string none | .broken => .malformed
  | _ => .mismatch

def string : Decoder String := fun _ raw =>
  match raw with
  | .string (some s) => .ok s
  | raw => .error (wrongKind raw)

def bool : Decoder Bool := fun _ raw =>
  match raw with
  | .bool b => .ok b
  | raw => .error (wrongKind raw)

/-- An integer literal between two bounds. -/
def integer (low high : Int) : Decoder Int := fun _ raw =>
  match raw with
  | .number (some (.whole n)) => if low ≤ n.val && n.val ≤ high then .ok n.val else .error .mismatch
  | raw => .error (wrongKind raw)

/-- An integer literal from zero to a bound. -/
def natural (high : Nat) : Decoder Nat := fun room raw =>
  (integer 0 high room raw).map Int.toNat

/-- An integer literal of 64 bits without a sign. -/
def natural64 : Decoder Nat := natural 0xFFFFFFFFFFFFFFFF

/-- A value, or null for none. -/
def nullable {α : Type} (decode : Decoder α) : Decoder (Option α) := fun room raw =>
  match raw with
  | .null => .ok none
  | raw => (decode room raw).map some

/-- Any document. -/
def document : Decoder Json := fun room raw =>
  match raw.toJson? room with
  | some json => .ok json
  | none => .error .malformed

/-- One of several names, or `other` for any name besides. A name may also be written as the only
field of an object, with the value null. -/
def enumeration {α : Type} (names : List (String × α)) (other : Option α) : Decoder α :=
  fun room raw =>
    let named (name : String) : Except Fault α :=
      match (names.lookup name).or other with
      | some a => .ok a
      | none => .error .mismatch
    match raw with
    | .string (some name) => named name
    | .object ((some name, value) :: rest) closed => do
      if room = 0 then throw .malformed
      let a ← named name
      match value with
      | .null => if rest.isEmpty && closed then return a else throw .malformed
      | value => throw (wrongKind value)
    | _ => .error .malformed

/-! ## Arrays and maps -/

def itemsOf {α : Type} (decode : Raw → Except Fault α) (closed : Bool) :
    List Raw → Except Fault (List α)
  | [] => if closed then .ok [] else .error .malformed
  | item :: rest => do return (← decode item) :: (← itemsOf decode closed rest)

/-- An array of values of one kind. -/
def list {α : Type} (decode : Decoder α) : Decoder (List α) := fun room raw =>
  match raw with
  | .array items closed =>
    if room = 0 then .error .malformed else itemsOf (decode (room - 1)) closed items
  | raw => .error (wrongKind raw)

/-- Puts an entry in its place among entries in rising order, instead of one of the same name. -/
def insertEntry {α : Type} (name : String) (value : α) : List (String × α) → List (String × α)
  | [] => [(name, value)]
  | (other, old) :: rest =>
    if name = other then (name, value) :: rest
    else if name < other then (name, value) :: (other, old) :: rest
    else (other, old) :: insertEntry name value rest

def entriesOf {α : Type} (decode : Raw → Except Fault α) (closed : Bool)
    (sofar : List (String × α)) : List (Option String × Raw) → Except Fault (List (String × α))
  | [] => if closed then .ok sofar else .error .malformed
  | (none, _) :: _ => .error .malformed
  | (some name, value) :: rest => do
    entriesOf decode closed (insertEntry name (← decode value) sofar) rest

/-- An object with values of one kind, in rising order of the names; the last of each name counts.
-/
def map {α : Type} (decode : Decoder α) : Decoder (List (String × α)) := fun room raw =>
  match raw with
  | .object fields closed =>
    if room = 0 then .error .malformed else entriesOf (decode (room - 1)) closed [] fields
  | raw => .error (wrongKind raw)

/-! ## Records -/

/-- A field of a record: its name, whether it must be there, and how its value is put in place. -/
structure Slot (σ : Type) where
  name : String
  required : Bool
  read : Nat → Raw → σ → Except Fault σ

/-- A field that must be there. -/
def Slot.must {σ α : Type} (name : String) (decode : Decoder α) (put : σ → α → σ) : Slot σ :=
  ⟨name, true, fun room raw record => (decode room raw).map (put record)⟩

/-- A field that may be left out. -/
def Slot.may {σ α : Type} (name : String) (decode : Decoder α) (put : σ → α → σ) : Slot σ :=
  ⟨name, false, fun room raw record => (decode room raw).map (put record)⟩

/-- Reads the fields of an object in the order of the text; `seen` are the names read so far. -/
def fieldsOf {σ : Type} (slots : List (Slot σ)) (room : Nat) (closed : Bool) (seen : List String)
    (record : σ) : List (Option String × Raw) → Except Fault σ
  | [] =>
    if !closed then .error .malformed
    else if slots.all fun slot => !slot.required || seen.contains slot.name then .ok record
    else .error .mismatch
  | (none, _) :: _ => .error .malformed
  | (some name, value) :: rest =>
    match slots.find? (·.name = name) with
    | none =>
      if value.isComplete then fieldsOf slots room closed seen record rest else .error .malformed
    | some slot =>
      if seen.contains name then .error .mismatch
      else do fieldsOf slots room closed (name :: seen) (← slot.read room value record) rest

/-- Reads the fields of a record that is written as an array. -/
def positionsOf {σ : Type} (room : Nat) (closed : Bool) (record : σ) :
    List (Slot σ) → List Raw → Except Fault σ
  | [], items => if items.isEmpty && closed then .ok record else .error .malformed
  | slot :: slots, item :: items => do
    positionsOf room closed (← slot.read room item record) slots items
  | slot :: slots, [] =>
    if !closed then .error .malformed
    else if slot.required || slots.any (·.required) then .error .mismatch
    else .ok record

/-- A record with the given fields, filled into `initial`. -/
def record {σ : Type} (initial : σ) (slots : List (Slot σ)) : Decoder σ := fun room raw =>
  match raw with
  | .object fields closed =>
    if room = 0 then .error .malformed else fieldsOf slots (room - 1) closed [] initial fields
  | .array items closed =>
    if room = 0 then .error .malformed else positionsOf (room - 1) closed initial slots items
  | raw => .error (wrongKind raw)

/-! ## Alternatives with a tag -/

/-- The fields of an object apart from its tag, and the alternative that the tag names. The tag is
judged where it stands; the other fields are only read. -/
def untag {α : Type} (tag : String) (names : List (String × α)) (room : Nat) (closed : Bool)
    (chosen : Option α) (others : List (Option String × Raw)) :
    List (Option String × Raw) → Except Fault (α × List (Option String × Raw))
  | [] =>
    if !closed then .error .malformed
    else match chosen with
      | some a => .ok (a, others.reverse)
      | none => .error .mismatch
  | (none, _) :: _ => .error .malformed
  | (some name, value) :: rest =>
    if name = tag then
      if chosen.isSome then .error .mismatch
      else match value with
        | .string (some s) =>
          match names.lookup s with
          | some a => untag tag names room closed (some a) others rest
          | none => .error .mismatch
        | value => .error (wrongKind value)
    else if (value.toJson? room).isSome then
      untag tag names room closed chosen ((some name, value) :: others) rest
    else .error .malformed

/-- One of several alternatives. The field `tag` names it, the other fields belong to it; an array
has the name first and the fields of the alternative after it. -/
def tagged {α : Type} (tag : String) (alternatives : List (String × Decoder α)) : Decoder α :=
  fun room raw =>
    let inner (decode : Decoder α) (raw : Raw) : Except Fault α :=
      match decode Raw.maximalNesting raw with
      | .ok a => .ok a
      | .error _ => .error .mismatch
    match raw with
    | .object fields closed => do
      if room = 0 then throw .malformed
      let (decode, others) ← untag tag alternatives (room - 1) closed none [] fields
      inner decode (.object others true)
    | .array items closed => do
      if room = 0 then throw .malformed
      match items with
      | [] => throw (if closed then .mismatch else .malformed)
      | .string (some name) :: rest =>
        match alternatives.lookup name with
        | none => throw .mismatch
        | some decode =>
          if rest.all (fun item => (item.toJson? (room - 1)).isSome) && closed then
            inner decode (.array rest true)
          else throw .malformed
      | item :: _ => throw (wrongKind item)
    | raw => .error (wrongKind raw)

end Decoder

/-- Reads a value out of a text that holds nothing else. -/
def decodeText {α : Type} (decode : Decoder α) (s : String) : Except Fault α := do
  let (raw, ended) := Raw.read s
  let a ← decode Raw.maximalNesting raw
  if ended then return a else throw .malformed

/-- Reads a value out of a document. -/
def decode? {α : Type} (decode : Decoder α) (json : Json) : Option α :=
  (decode Raw.maximalNesting (Raw.ofJson json)).toOption

end BulkLoad.Json
