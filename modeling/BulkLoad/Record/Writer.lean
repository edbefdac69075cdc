import BulkLoad.Record.Coerce

/-!
# Writing rows as records

A `WriterSet` holds, for each column of a schema, under which key and as which target its cells are
written. Every record has exactly one entry `time` with the partition key, from the first of these
that there is: a time value of the settings, the column that the settings name, a column named
`time`, the first timestamp column. A column that gives the key and is not itself named `time` is
written under its own name as well; a column named `time` that does not give the key gets
underscores.
-/

namespace BulkLoad.Record

/-- What a column contributes to a record. -/
inductive Role
  /-- The partition key and nothing else. -/
  | key
  /-- A value under the column's own key. -/
  | plain
  /-- A value under the column's own key, and the partition key. -/
  | keyAndPlain
deriving DecidableEq, Repr

/-- How a column is written. -/
structure Binding where
  index : Nat
  column : String
  /-- The key in the record. -/
  key : String
  role : Role
  source : ColumnType
  target : Target
deriving DecidableEq, Repr

/-- A binding, and how timestamps are written under it. -/
structure Writer where
  binding : Binding
  formatter : Formatter
deriving DecidableEq

/-- The writers of all columns in their order. -/
structure WriterSet where
  writers : List Writer
  unit : TimeUnit
  generator : Option TimeGenerator
deriving DecidableEq

/-! ## Names -/

/-- A name with a number of underscores after it. -/
def underscored (name : String) (k : Nat) : String :=
  name ++ String.ofList (List.replicate k '_')

/-- The name with the fewest underscores, at least one, that is not in use. Among one name more than
there are names in use, one is free. -/
def uniqueName (name : String) (used : List String) : String :=
  (((List.range (used.length + 1)).map fun k => underscored name (k + 1)).find?
    fun candidate => !used.contains candidate).getD (underscored name (used.length + 1))

/-! ## Resolving the columns -/

/-- The time column of the settings, unless a usable column named `time` is preferred to it. -/
def effectiveTimeColumn (schema : Schema) (settings : Settings) : Option String :=
  settings.timeColumn.filter fun name =>
    !(settings.preferTime && name ≠ timeKey
      && (schema.column? timeKey).any fun column => column.type.holdsTime)

/-- The formatter of a column: its own pattern or zone is completed from the defaults. -/
def columnFormatter (settings : Settings) (standard : Formatter) (option : Option ColumnOption) :
    Except SettingsFault Formatter :=
  match option with
  | none => .ok standard
  | some o =>
    if o.pattern.isSome || o.zone.isSome then
      Formatter.ofTexts (o.pattern.getD settings.defaultPattern) (o.zone.getD settings.defaultZone)
    else .ok standard

/-- The role and the key of a column, where `timeColumn` is the column that the settings name and
`hasKey` says whether the key comes from elsewhere anyway. -/
def columnRole (timeColumn : Option String) (hasKey : Bool) (used : List String) (column : Column) :
    Except SettingsFault (Role × String) :=
  let needTime (role : Role) : Except SettingsFault (Role × String) :=
    if column.type.holdsTime then .ok (role, column.name)
    else .error (.notATimeColumn column.name column.type)
  if timeColumn = some column.name then
    needTime (if column.name = timeKey then .key else .keyAndPlain)
  else if column.name = timeKey then
    if hasKey then .ok (.plain, uniqueName column.name used) else needTime .key
  else .ok (.plain, column.name)

/-- The writer of a column. -/
def bindColumn (settings : Settings) (standard : Formatter) (timeColumn : Option String)
    (used : List String) (index : Nat) (column : Column) : Except SettingsFault Writer := do
  let option := settings.options.lookup column.name
  let formatter ← columnFormatter settings standard option
  let (role, key) ←
    columnRole timeColumn (timeColumn.isSome || settings.timeValue.isSome) used column
  let target := if role = .key then .long
    else (option.bind (·.target)).getD (Target.ofType column.type)
  return ⟨⟨index, column.name, key, role, column.type, target⟩, formatter⟩

/-- The writers of columns from a position on; a new key joins the names in use. -/
def bindColumns (settings : Settings) (standard : Formatter) (timeColumn : Option String)
    (used : List String) (index : Nat) : List Column → Except SettingsFault (List Writer)
  | [] => .ok []
  | column :: rest => do
    let writer ← bindColumn settings standard timeColumn used index column
    return writer ::
      (← bindColumns settings standard timeColumn (writer.binding.key :: used) (index + 1) rest)

/-- Gives the partition key to the first timestamp column, if there is one. -/
def promoteTimestamp : List Writer → Option (List Writer)
  | [] => none
  | writer :: rest =>
    if writer.binding.source = .timestamp then
      some ({ writer with binding := { writer.binding with role := .keyAndPlain } } :: rest)
    else (promoteTimestamp rest).map (writer :: ·)

/-- Whether a column gives the partition key. -/
def Writer.givesKey (writer : Writer) : Bool :=
  writer.binding.role ≠ .plain

/-- Accepts a column of options that the schema has. -/
def checkOptions (schema : Schema) (settings : Settings) : Except SettingsFault Unit :=
  match settings.options.find? fun option => !schema.contains option.1 with
  | some (name, _) => .error (.unknownOption name)
  | none => .ok ()

/-- Accepts a time column that the schema has. -/
def checkTimeColumn (schema : Schema) (settings : Settings) : Except SettingsFault Unit :=
  match settings.timeColumn with
  | some name => if schema.contains name then .ok () else .error (.unknownTimeColumn name)
  | none => .ok ()

/-- The generator of settings that fit a schema; they name one source of partition keys at most. -/
def checkSettings (schema : Schema) (settings : Settings) :
    Except SettingsFault (Option TimeGenerator) := do
  if settings.timeColumn.isSome && settings.timeValue.isSome then .error .twoTimeSources
  else
    checkOptions schema settings
    let generator ← settings.timeValue.mapM TimeGenerator.ofValue
    checkTimeColumn schema settings
    return generator

/-- Makes sure that there is a source of partition keys. -/
def ensureKey (generator : Option TimeGenerator) (writers : List Writer) :
    Except SettingsFault (List Writer) :=
  if generator.isSome || writers.any Writer.givesKey then .ok writers
  else match promoteTimestamp writers with
    | some writers => .ok writers
    | none => .error .noTimeColumn

/-- Resolves all columns of a schema. -/
def WriterSet.resolve (schema : Schema) (settings : Settings) : Except SettingsFault WriterSet := do
  let generator ← checkSettings schema settings
  let standard ← Formatter.ofTexts settings.defaultPattern settings.defaultZone
  let writers ← bindColumns settings standard (effectiveTimeColumn schema settings) schema.names 0
    schema.columns
  return ⟨← ensureKey generator writers, settings.unit, generator⟩

namespace WriterSet

/-- The number of cells of a row. -/
def width (set : WriterSet) : Nat :=
  set.writers.length

def bindings (set : WriterSet) : List Binding :=
  set.writers.map (·.binding)

/-! ## Writing -/

/-- The entry with the partition key. -/
def keyEntry (seconds : Int64) : Packed × Packed :=
  (.text timeKey, .ofInt64 seconds)

/-- The entries of one cell. -/
def cellEntries (unit : TimeUnit) (writer : Writer) (cell : Cell) :
    Except Failure (List (Packed × Packed)) := do
  let binding := writer.binding
  let seconds : Except Failure Int64 :=
    match unit.seconds binding.column cell with
    | .ok seconds => .ok seconds
    | .error e => .error (.refused e)
  let value := coerce binding.column cell binding.target writer.formatter
  match binding.role with
  | .key => return [keyEntry (← seconds)]
  | .plain => return [(.text binding.key, ← value)]
  | .keyAndPlain =>
    let s ← seconds
    return [(.text binding.key, ← value), keyEntry s]

/-- The entries of cells in the order of their columns. -/
def rowEntries (unit : TimeUnit) : List Writer → Row → Except Failure (List (Packed × Packed))
  | writer :: writers, cell :: cells => do
    return (← cellEntries unit writer cell) ++ (← rowEntries unit writers cells)
  | _, _ => .ok []

/-- Writes a row. A time value comes first in the record, and the generator moves on only when the
row is written. -/
def write (set : WriterSet) (row : Row) : Except Failure (Packed × WriterSet) := do
  if row.length ≠ set.width then throw (.refused (.rowWidth set.width row.length))
  let entries ← rowEntries set.unit set.writers row
  match set.generator with
  | none => return (.map entries, set)
  | some generator =>
    let (seconds, generator) := generator.next
    return (.map (keyEntry seconds :: entries), { set with generator := some generator })

/-- Writes rows one after the other; a row that cannot be written changes nothing. -/
def writeAll (set : WriterSet) : List Row → List (Except Failure Packed)
  | [] => []
  | row :: rest =>
    match set.write row with
    | .ok (record, set) => .ok record :: set.writeAll rest
    | .error e => .error e :: set.writeAll rest

end WriterSet

end BulkLoad.Record
