import BulkLoad.Proofs.Record.Units
import BulkLoad.Rows.JsonLines

/-!
# Partition keys are whole seconds, rounded down

A cell gives the second that it lies in (`IsKey`). For a long this is the number of whole seconds in
its units, rounded down also before 1970; for a timestamp it is the second that it begins with. The
key that a cell gives is the only integer of this kind (`seconds_eq_ok_iff`), and the other claims
on keys are facts on `IsKey` : keys rise with the cells, and an instant has the same key as the
number of units up to it (`floors_seconds`).

The key of a cell is the partition key of the record that its row is written as, whether the column
is written under its own name as well or not (`hasKey_of_write`). What was written before has no
bearing on it : each row is written by writers with another generator at most (`side_by_side`), so
this is true of every record of a sequence (`keys_floored`).
-/

namespace BulkLoad.Record

/-! ## The second of a cell -/

/-- The second that a cell lies in, where a long counts units. -/
def IsKey (unit : TimeUnit) : Cell → Int → Prop
  | .long i, s => s * unit.perSecond ≤ i.toInt ∧ i.toInt < (s + 1) * unit.perSecond
  | .timestamp t, s => s = t.seconds
  | _, _ => False

/-- The number of units from 1970 to an instant, rounded down. -/
def TimeUnit.upTo (unit : TimeUnit) (t : Calendar.Instant) : Int :=
  (t.seconds * nanosPerSecond + t.nanos) * unit.perSecond / nanosPerSecond

section Cells

variable {unit : TimeUnit} {column : String}

/-- Rounding down leads to a number that is no larger, so it stays among the integers of 64 bits. -/
theorem toInt_ofInt_ediv (unit : TimeUnit) (i : Int64) :
    (Int64.ofInt (i.toInt / unit.perSecond)).toInt = i.toInt / unit.perSecond := by
  have hl := i.le_toInt
  have hu := i.toInt_lt
  cases unit <;> exact Int64.toInt_ofInt_of_le (by simp only [TimeUnit.perSecond]; omega)
    (by simp only [TimeUnit.perSecond]; omega)

/-- A quotient is rounded down just if it times the divisor lies this close below. -/
theorem ediv_perSecond_eq_iff {unit : TimeUnit} {i s : Int} :
    i / unit.perSecond = s ↔ s * unit.perSecond ≤ i ∧ i < (s + 1) * unit.perSecond := by
  cases unit <;> simp only [TimeUnit.perSecond] <;> omega

/-- The key of a cell is the second that it lies in. -/
theorem seconds_eq_ok_iff {cell : Cell} {s : Int64} :
    unit.seconds column cell = .ok s ↔ IsKey unit cell s.toInt := by
  cases cell with
  | long i =>
    rw [TimeUnit.seconds, Except.ok.injEq, IsKey, ← ediv_perSecond_eq_iff, ← Int64.toInt_inj,
      toInt_ofInt_ediv]
  | timestamp t =>
    rw [TimeUnit.seconds, Except.ok.injEq, IsKey, ← Int64.toInt_inj,
      Calendar.Instant.toInt_seconds64, eq_comm]
  | _ => simp [TimeUnit.seconds, IsKey]

/-- A later long does not lie in an earlier second. -/
theorem IsKey.mono {i j : Int64} {s r : Int} (hi : IsKey unit (.long i) s)
    (hj : IsKey unit (.long j) r) (h : i ≤ j) : s ≤ r := by
  rw [IsKey, ← ediv_perSecond_eq_iff] at hi hj
  rw [← hi, ← hj]
  have hpos : 0 < unit.perSecond := by cases unit <;> decide
  exact Int.ediv_le_ediv hpos (Int64.le_iff_toInt_le.1 h)

/-- Outside leap seconds, the units up to an instant lie in its second. -/
theorem IsKey.upTo {t : Calendar.Instant} (ht : t.nanos < nanosPerSecond) {i : Int64}
    (hi : i.toInt = unit.upTo t) : IsKey unit (.long i) t.seconds := by
  rw [IsKey, ← ediv_perSecond_eq_iff, hi, TimeUnit.upTo]
  simp only [nanosPerSecond] at ht ⊢
  cases unit <;> simp only [TimeUnit.perSecond] <;> omega

end Cells

/-- What is asked of partition keys that are taken from cells. -/
structure Floors (unit : TimeUnit) (key : Cell → Except EncodeError Int64) : Prop where
  /-- Every long has a key, which is rounded down over the integers without a bound. -/
  long : ∀ i : Int64, ∃ s, key (.long i) = .ok s ∧
    s.toInt * unit.perSecond ≤ i.toInt ∧ i.toInt < (s.toInt + 1) * unit.perSecond
  mono : ∀ i j s r : Int64, i ≤ j → key (.long i) = .ok s → key (.long j) = .ok r → s ≤ r
  timestamp : ∀ t : Calendar.Instant, ∃ s, key (.timestamp t) = .ok s ∧ s.toInt = t.seconds
  /-- An instant and the units up to it have one key. -/
  agree : ∀ (t : Calendar.Instant) (i : Int64), t.nanos < nanosPerSecond →
    i.toInt = unit.upTo t → key (.long i) = key (.timestamp t)

theorem floors_seconds (unit : TimeUnit) (column : String) :
    Floors unit (unit.seconds column) where
  long i := by
    obtain ⟨s, hs⟩ : ∃ s, unit.seconds column (.long i) = .ok s := ⟨_, rfl⟩
    exact ⟨s, hs, seconds_eq_ok_iff.1 hs⟩
  mono _ _ _ _ h hi hj :=
    Int64.le_iff_toInt_le.2 ((seconds_eq_ok_iff.1 hi).mono (seconds_eq_ok_iff.1 hj) h)
  timestamp t := ⟨_, rfl, t.toInt_seconds64⟩
  agree t _ ht hi := seconds_eq_ok_iff.2 (t.toInt_seconds64.symm ▸ IsKey.upTo ht hi)

/-! ## The key of a record -/

/-- The record has one partition key, and it is this one. -/
def HasKey (record : Packed) (s : Int64) : Prop :=
  ∃ fields, record = recordOf fields ∧ fields.filter (·.1 = timeKey) = [(timeKey, .ofInt64 s)]

/-- The entries of a row have the key of each cell that gives one. -/
theorem keyEntry_mem_of_rowEntries {unit : TimeUnit} : ∀ {writers : List Writer} {row : Row}
    {entries : List (Packed × Packed)}, WriterSet.rowEntries unit writers row = .ok entries →
    ∀ {writer : Writer} {cell : Cell}, (writer, cell) ∈ writers.zip row → writer.givesKey →
      ∃ s, unit.seconds writer.binding.column cell = .ok s ∧ WriterSet.keyEntry s ∈ entries
  | [], _, _, _, _, _, hp, _ | _ :: _, [], _, _, _, _, hp, _ => by simp at hp
  | _ :: _, _ :: _, _, h, _, _, hp, hg => by
    rw [WriterSet.rowEntries] at h
    obtain ⟨first, hf, h⟩ := bind_eq_ok.1 h
    obtain ⟨rest, hr, h⟩ := bind_eq_ok.1 h
    cases h
    rw [List.zip_cons_cons] at hp
    rcases List.mem_cons.1 hp with he | hp
    · cases he
      obtain ⟨s, hs, hlast⟩ := getLast?_of_cellEntries hg hf
      exact ⟨s, hs, List.mem_append_left _ (List.mem_of_getLast? hlast)⟩
    · obtain ⟨s, hs, hmem⟩ := keyEntry_mem_of_rowEntries hr hp hg
      exact ⟨s, hs, List.mem_append_right _ hmem⟩

/-- A row is written with the key of its cell. -/
theorem hasKey_of_write {schema : Schema} {set after : WriterSet} (hs : set.Sound schema)
    {row : Row} {record : Packed} (h : set.write row = .ok (record, after)) {writer : Writer}
    {cell : Cell} (hp : (writer, cell) ∈ set.writers.zip row) (hg : writer.givesKey) :
    ∃ s, set.unit.seconds writer.binding.column cell = .ok s ∧ HasKey record s := by
  obtain ⟨fields, rfl, hkeyed⟩ := keyed_of_write hs h
  obtain ⟨-, ⟨entries, he, hrecord⟩, -⟩ := write_eq_ok h
  obtain ⟨s, hsec, hmem⟩ := keyEntry_mem_of_rowEntries he hp hg
  obtain ⟨r, hr⟩ := hkeyed.time
  refine ⟨s, hsec, fields, rfl, ?_⟩
  have hfields : WriterSet.keyEntry s ∈ fields.map fun field => (Packed.text field.1, field.2) :=
    Packed.map.inj hrecord ▸ List.mem_append_right _ hmem
  obtain ⟨⟨name, value⟩, hfield, hentry⟩ := List.mem_map.1 hfields
  have hname : name = timeKey := Packed.text.inj (Prod.mk.inj hentry).1
  have hfilter : (name, value) ∈ fields.filter (·.1 = timeKey) :=
    List.mem_filter.2 ⟨hfield, by simpa using hname⟩
  rw [hr, List.mem_singleton] at hfilter
  have hkey : WriterSet.keyEntry s = WriterSet.keyEntry r := by
    rw [← hentry]
    cases hfilter
    rfl
  rw [hr, keyEntry_injective hkey]

theorem WriterSet.Sound.of_generator {schema : Schema} {set : WriterSet} (hs : set.Sound schema)
    {generator : Option TimeGenerator} (hg : generator.isSome = set.generator.isSome) :
    WriterSet.Sound schema { set with generator } := by
  refine ⟨hs.columns_eq, hs.nodup_keys, hs.role_eq_key_iff, ?_⟩
  have hone := hs.one_source
  cases hset : set.generator <;> cases generator <;> simp_all

/-- Partition keys are seconds rounded down, for longs in any unit and for timestamps alike. In
every record that is written in a sequence of rows, the partition key is the key of the cell that it
comes from, if it comes from one. -/
theorem keys_floored (unit : TimeUnit) :
    (∀ column, Floors unit (unit.seconds column)) ∧
    ∀ {schema : Schema} {settings : Settings} {set : WriterSet}, schema.Distinct →
      WriterSet.resolve schema settings = .ok set → settings.unit = unit →
      ∀ {rows : List Row} {row : Row} {record : Packed},
        (row, Except.ok record) ∈ rows.zip (set.writeAll rows) →
        ∀ {writer : Writer} {cell : Cell}, (writer, cell) ∈ set.writers.zip row →
          writer.givesKey →
          ∃ s, unit.seconds writer.binding.column cell = .ok s ∧ HasKey record s := by
  refine ⟨floors_seconds unit, ?_⟩
  rintro schema settings set hs h rfl rows row record hr writer cell hp hg
  have hunit := unit_of_resolve h
  obtain ⟨i, hi⟩ := List.mem_iff_getElem?.1 hr
  obtain ⟨hrow, hresult⟩ := List.getElem?_zip_eq_some.1 hi
  obtain ⟨generator, hsome, hwritten, -⟩ := side_by_side set.unit rows set hrow
  obtain ⟨⟨record', after⟩, hw, rfl⟩ :=
    map_eq_ok_iff.1 (Option.some.inj (hwritten.symm.trans hresult))
  exact hunit ▸ hasKey_of_write ((sound_of_resolve hs h).of_generator hsome) hw hp hg

/-! ## A moment before 1970 -/

/-- The column `seen` counts milliseconds and gives the partition key. -/
def earlySchema : Schema :=
  ⟨[⟨"seen", .long⟩]⟩

def earlySettings : Settings :=
  { timeColumn := some "seen", unit := .milli }

def earlyWriter : Writer :=
  ⟨⟨0, "seen", "seen", .keyAndPlain, .long, .long⟩, .standard⟩

/-- A second and a half before 1970. -/
def earlyInstant : Calendar.Instant :=
  ⟨-2, 500000000, by decide, by decide, by decide⟩

theorem keys_floored_early :
    TimeUnit.milli.seconds "seen" (.long (-1500)) =
        TimeUnit.milli.seconds "seen" (.timestamp earlyInstant) ∧
      earlySchema.Distinct ∧
      WriterSet.resolve earlySchema earlySettings = .ok ⟨[earlyWriter], .milli, none⟩ ∧
      earlyWriter.givesKey ∧
      HasKey (recordOf [("seen", .ofInt64 (-1500)), ("time", .ofInt64 (-2))]) (-2) := by
  have hs : earlySchema.Distinct := by decide
  have h : WriterSet.resolve earlySchema earlySettings = .ok ⟨[earlyWriter], .milli, none⟩ := by
    decide +kernel
  have hr : ([Cell.long (-1500)],
      .ok (recordOf [("seen", .ofInt64 (-1500)), ("time", .ofInt64 (-2))])) ∈
      [[Cell.long (-1500)]].zip
        (WriterSet.writeAll ⟨[earlyWriter], .milli, none⟩ [[.long (-1500)]]) :=
    List.mem_of_getElem? (show _[0]? = _ from rfl)
  have hp : (earlyWriter, Cell.long (-1500)) ∈ [earlyWriter].zip [Cell.long (-1500)] :=
    List.mem_of_getElem? (show _[0]? = _ from rfl)
  obtain ⟨hfloors, hkeys⟩ := keys_floored .milli
  obtain ⟨s, hsec, hkey⟩ := hkeys hs h rfl hr hp (by decide)
  obtain rfl : s = -2 := Except.ok.inj hsec.symm
  exact ⟨(hfloors "seen").agree earlyInstant (-1500) (by decide) (by decide), hs, h, by decide,
    hkey⟩

end BulkLoad.Record
