import BulkLoad.Proofs.Record.Entries
import BulkLoad.Proofs.Record.Numerals
import BulkLoad.Proofs.Record.Sources

/-!
# Which rows are written, and as what

A cell is `Convertible` to a target by a table of the types of cells against the targets, where
three conversions depend on the value : a double is cut to an integer, and a text is read as a
number. `coerce` follows this table (`coerce_isOk_iff`), and what it makes is of the kind of the
target (`mirrors_of_coerce`).

A row is `Writable` if it has a cell for each column and all its cells are `Clean`. Such a row is
written, and any other is refused for its width or for its first cell that is `Faulty`
(`written_iff_writable`). This holds of every row in a sequence : what was written before has a
bearing on the partition keys of a generator, and on nothing else.
-/

namespace BulkLoad.Record

/-! ## The table -/

/-- The cells that can be written as a target. A text is read as a number without the blanks around
it, and an integer has to fit into 64 bits. -/
def Convertible : Cell → Target → Prop
  | .null, _ => True
  | .boolean _, target => target ≠ .structured
  | .long _, target => target ≠ .structured
  | .double x, .long =>
    x.isFinite ∧ -0x8000000000000000 ≤ x.truncate ∧ x.truncate < 0x8000000000000000
  | .double _, target => target ≠ .structured
  | .string s, .long => ∃ i, Decimal.IsInteger (Text.trimChars s.toList) i ∧
    -0x8000000000000000 ≤ i ∧ i < 0x8000000000000000
  | .string s, .double => Double.IsNumber (Text.trimChars s.toList)
  | .string _, target => target ≠ .structured
  | .timestamp _, target => target = .long ∨ target = .double ∨ target = .string
  | .json _, target => target = .string ∨ target = .structured

/-- What is said of a cell that cannot be written as a target. -/
def complaint : Cell → Target → String
  | .double _, .long => "out of range"
  | .string s, .long => match readLong s with
    | .error fault => fault.message
    | .ok _ => ""
  | .string s, .double => match readDouble s with
    | .error fault => fault.message
    | .ok _ => ""
  | _, _ => "unsupported conversion"

/-- The values that a target stands for. A structured value is the document of the cell. -/
def Target.Admits (cell : Cell) (value : Packed) : Target → Prop
  | .boolean => ∃ b, value = .bool b
  | .long => ∃ i, value = .ofInt64 i
  | .double => ∃ x, value = .double x
  | .string => ∃ s, value = .text s
  | .structured => ∃ document, cell = .json document ∧ value = .ofJson document

/-- What a cell is written as : a value that the target stands for, or nil for a null. -/
structure Mirrors (target : Target) (cell : Cell) (value : Packed) : Prop where
  kind : value = .nil ∨ target.Admits cell value
  null : value = .nil → cell = .null ∨ cell = .json .null ∧ target = .structured

theorem truncate?_eq_some_iff {x : Double} {i : Int64} :
    truncate? x = some i ↔ (x.isFinite ∧ -0x8000000000000000 ≤ x.truncate ∧
      x.truncate < 0x8000000000000000) ∧ i = Int64.ofInt x.truncate := by
  simp only [truncate?, Bool.and_eq_true, decide_eq_true_eq, and_assoc]
  split_ifs with h
  · simp [h, eq_comm]
  · simp only [false_iff]
    exact fun hall => h ⟨hall.1, hall.2.1, hall.2.2.1⟩

/-- A text is read as the long that it is the text of. -/
theorem readLong_eq_ok_iff {s : String} {v : Int64} :
    readLong s = .ok v ↔ Decimal.IsInteger (Text.trimChars s.toList) v.toInt := by
  have hlow := v.le_toInt
  have hhigh := v.toInt_lt
  rw [readLong, map_eq_ok_iff]
  simp only [@Decimal.readInteger_eq_ok_iff (-0x8000000000000000) 0x7FFFFFFFFFFFFFFF (by decide)
    (by decide)]
  constructor
  · rintro ⟨i, ⟨h, hl, hh⟩, rfl⟩
    rwa [Int64.toInt_ofInt_of_le hl (by omega)]
  · intro h
    exact ⟨v.toInt, ⟨h, hlow, by omega⟩, Int64.ofInt_toInt v⟩

theorem exists_readLong_iff {s : String} :
    (∃ i, readLong s = .ok i) ↔ Convertible (.string s) .long := by
  simp only [readLong_eq_ok_iff, Convertible]
  constructor
  · rintro ⟨v, h⟩
    exact ⟨v.toInt, h, v.le_toInt, v.toInt_lt⟩
  · rintro ⟨i, h, hl, hh⟩
    exact ⟨Int64.ofInt i, by rwa [Int64.toInt_ofInt_of_le hl hh]⟩

/-- With a pattern that can be rendered all timestamps have a text. -/
theorem exists_text? {formatter : Formatter} (hp : formatter.pattern.Renderable)
    (t : Calendar.Instant) : ∃ s, formatter.text? t = some s := by
  rw [← Option.isSome_iff_exists, Formatter.text?, Option.isSome_map]
  exact (Calendar.Pattern.isSome_render?_iff _ _).2 hp

section Coerce

variable {column : String} {cell : Cell} {target : Target} {formatter : Formatter}

/-- Only the null document becomes nil. -/
theorem ofJson_eq_nil_iff {document : Json} : Packed.ofJson document = .nil ↔ document = .null := by
  cases document with
  | number n => cases n <;> simp [Packed.ofJson]
  | _ => simp [Packed.ofJson]

/-- By cases on the cell and the target, as in the table. -/
theorem mirrors_of_coerce {value : Packed} (h : coerce column cell target formatter = .ok value) :
    Mirrors target cell value := by
  cases cell with
  | null => cases h; exact ⟨Or.inl rfl, fun _ => Or.inl rfl⟩
  | boolean _ | long _ => cases target <;> cases h <;> exact ⟨Or.inr ⟨_, rfl⟩, nofun⟩
  | double x =>
    cases target with
    | long =>
      simp only [coerce] at h
      split at h <;> cases h
      exact ⟨Or.inr ⟨_, rfl⟩, nofun⟩
    | _ => cases h <;> exact ⟨Or.inr ⟨_, rfl⟩, nofun⟩
  | string s =>
    cases target with
    | long | double =>
      simp only [coerce] at h
      split at h <;> cases h
      exact ⟨Or.inr ⟨_, rfl⟩, nofun⟩
    | _ => cases h <;> exact ⟨Or.inr ⟨_, rfl⟩, nofun⟩
  | timestamp t =>
    cases target with
    | string =>
      simp only [coerce] at h
      split at h <;> cases h
      exact ⟨Or.inr ⟨_, rfl⟩, nofun⟩
    | _ => cases h <;> exact ⟨Or.inr ⟨_, rfl⟩, nofun⟩
  | json document =>
    cases target <;> cases h
    · exact ⟨Or.inr ⟨_, rfl⟩, nofun⟩
    · exact ⟨Or.inr ⟨_, rfl, rfl⟩, fun hn => Or.inr ⟨by rw [ofJson_eq_nil_iff.1 hn], rfl⟩⟩

/-- Cells that are convertible are written, and only they. -/
theorem coerce_isOk_iff (hp : formatter.pattern.Renderable) :
    (∃ value, coerce column cell target formatter = .ok value) ↔ Convertible cell target := by
  cases cell with
  | null => simp [coerce, Convertible]
  | boolean _ | long _ => cases target <;> simp [coerce, Convertible]
  | double x =>
    cases target with
    | long =>
      have hcut : (∃ i, truncate? x = some i) ↔ Convertible (.double x) .long := by
        simp [truncate?_eq_some_iff, Convertible]
      rw [← hcut]
      simp only [coerce]
      split <;> simp_all
    | _ => simp [coerce, Convertible]
  | string s =>
    cases target with
    | long =>
      rw [← exists_readLong_iff]
      simp only [coerce]
      split <;> simp_all
    | double =>
      rw [Convertible, ← Double.exists_ofText_iff]
      simp only [coerce, readDouble]
      split <;> simp_all
    | _ => simp [coerce, Convertible]
  | timestamp t =>
    cases target with
    | string =>
      obtain ⟨text, ht⟩ := exists_text? hp t
      simp [coerce, Convertible, ht]
    | _ => simp [coerce, Convertible]
  | json document => cases target <;> simp [coerce, Convertible]

/-- A conversion is refused with the type of the cell. -/
theorem coerce_eq_error (hp : formatter.pattern.Renderable) {failure : Failure}
    (h : coerce column cell target formatter = .error failure) :
    ∃ type, cell.type? = some type ∧
      failure = .refused (.notConvertible column type target (complaint cell target)) := by
  cases cell with
  | null => cases h
  | boolean _ | long _ | json _ => cases target <;> cases h <;> exact ⟨_, rfl, rfl⟩
  | double x =>
    cases target with
    | long =>
      simp only [coerce] at h
      split at h <;> cases h
      exact ⟨_, rfl, rfl⟩
    | _ => cases h <;> exact ⟨_, rfl, rfl⟩
  | string s =>
    cases target with
    | long | double =>
      simp only [coerce] at h
      split at h <;> cases h
      next hf => exact ⟨_, rfl, by simp [complaint, hf]⟩
    | _ => cases h <;> exact ⟨_, rfl, rfl⟩
  | timestamp t =>
    cases target with
    | string =>
      obtain ⟨text, ht⟩ := exists_text? hp t
      simp [coerce, ht] at h
    | _ => cases h <;> exact ⟨_, rfl, rfl⟩

end Coerce

/-! ## Cells -/

/-- A cell that can hold the partition key. -/
def IsTime (cell : Cell) : Prop :=
  cell.type? = some .long ∨ cell.type? = some .timestamp

/-- A cell that can be written as its column asks for. -/
structure Clean (writer : Writer) (cell : Cell) : Prop where
  time : writer.givesKey → IsTime cell
  value : writer.binding.role ≠ .key → Convertible cell writer.binding.target

/-- What is wrong with a cell. A partition key that cannot be one comes before a conversion that is
not possible. -/
inductive Faulty (writer : Writer) (cell : Cell) : EncodeError → Prop
  | nullTime (hg : writer.givesKey) (hc : cell = .null) :
    Faulty writer cell (.nullTime writer.binding.column)
  | invalidTime {type : ColumnType} (hg : writer.givesKey) (hc : ¬ IsTime cell)
    (ht : cell.type? = some type) :
    Faulty writer cell (.invalidTime writer.binding.column type)
  | notConvertible {type : ColumnType} (hk : writer.givesKey → IsTime cell)
    (hr : writer.binding.role ≠ .key) (hc : ¬ Convertible cell writer.binding.target)
    (ht : cell.type? = some type) :
    Faulty writer cell (.notConvertible writer.binding.column type writer.binding.target
      (complaint cell writer.binding.target))

section Cells

variable {unit : TimeUnit} {writer : Writer} {cell : Cell}

theorem seconds_isOk_iff {column : String} :
    (∃ s, unit.seconds column cell = .ok s) ↔ IsTime cell := by
  cases cell <;> simp [TimeUnit.seconds, IsTime, Cell.type?]

theorem Faulty.of_seconds (hg : writer.givesKey) {e : EncodeError}
    (h : unit.seconds writer.binding.column cell = .error e) : Faulty writer cell e := by
  cases cell with
  | null => cases h; exact .nullTime hg rfl
  | long _ | timestamp _ => cases h
  | _ => cases h; exact .invalidTime hg (by simp [IsTime, Cell.type?]) rfl

theorem Faulty.of_coerce (hp : writer.formatter.pattern.Renderable)
    (hk : writer.givesKey → IsTime cell) (hr : writer.binding.role ≠ .key) {failure : Failure}
    (h : coerce writer.binding.column cell writer.binding.target writer.formatter =
      .error failure) : ∃ e, failure = .refused e ∧ Faulty writer cell e := by
  obtain ⟨type, ht, rfl⟩ := coerce_eq_error hp h
  refine ⟨_, rfl, .notConvertible hk hr ?_ ht⟩
  rw [← coerce_isOk_iff hp, h]
  rintro ⟨value, ⟨⟩⟩

/-- The partition key of a cell, as `cellEntries` takes it. -/
theorem key_eq_ok_iff {column : String} {s : Int64} :
    (match unit.seconds column cell with
      | .ok seconds => Except.ok seconds
      | .error e => .error (Failure.refused e)) = .ok s ↔ unit.seconds column cell = .ok s := by
  cases unit.seconds column cell <;> simp

theorem key_eq_error_iff {column : String} {failure : Failure} :
    (match unit.seconds column cell with
      | .ok seconds => Except.ok seconds
      | .error e => .error (Failure.refused e)) = .error failure ↔
        ∃ e, failure = .refused e ∧ unit.seconds column cell = .error e := by
  cases unit.seconds column cell <;> simp [eq_comm]

/-- A cell that is written is clean. -/
theorem cellEntries_isOk_iff (unit : TimeUnit) (hp : writer.formatter.pattern.Renderable) :
    (∃ entries, WriterSet.cellEntries unit writer cell = .ok entries) ↔ Clean writer cell := by
  unfold WriterSet.cellEntries
  dsimp only
  constructor
  · rintro ⟨entries, h⟩
    cases hr : writer.binding.role with
    | key =>
      simp only [hr, bind_eq_ok] at h
      obtain ⟨s, hs, -⟩ := h
      exact ⟨fun _ => seconds_isOk_iff.1 ⟨s, key_eq_ok_iff.1 hs⟩, fun hne => absurd hr hne⟩
    | plain =>
      simp only [hr, bind_eq_ok] at h
      obtain ⟨value, hv, -⟩ := h
      exact ⟨fun hg => by simp [Writer.givesKey, hr] at hg,
        fun _ => (coerce_isOk_iff hp).1 ⟨value, hv⟩⟩
    | keyAndPlain =>
      simp only [hr, bind_eq_ok] at h
      obtain ⟨s, hs, value, hv, -⟩ := h
      exact ⟨fun _ => seconds_isOk_iff.1 ⟨s, key_eq_ok_iff.1 hs⟩,
        fun _ => (coerce_isOk_iff hp).1 ⟨value, hv⟩⟩
  · intro h
    have htime (hr : writer.binding.role ≠ .plain) :
        ∃ s, unit.seconds writer.binding.column cell = .ok s :=
      seconds_isOk_iff.2 (h.time (by simpa [Writer.givesKey] using hr))
    have hvalue (hr : writer.binding.role ≠ .key) : ∃ value,
        coerce writer.binding.column cell writer.binding.target writer.formatter = .ok value :=
      (coerce_isOk_iff hp).2 (h.value hr)
    cases hr : writer.binding.role with
    | key =>
      obtain ⟨s, hs⟩ := htime (by simp [hr])
      exact ⟨_, bind_eq_ok.2 ⟨s, key_eq_ok_iff.2 hs, rfl⟩⟩
    | plain =>
      obtain ⟨value, hv⟩ := hvalue (by simp [hr])
      exact ⟨_, bind_eq_ok.2 ⟨value, hv, rfl⟩⟩
    | keyAndPlain =>
      obtain ⟨s, hs⟩ := htime (by simp [hr])
      obtain ⟨value, hv⟩ := hvalue (by simp [hr])
      exact ⟨_, bind_eq_ok.2 ⟨s, key_eq_ok_iff.2 hs, bind_eq_ok.2 ⟨value, hv, rfl⟩⟩⟩

/-- A cell that is not written is faulty, and its fault is what is said of it. -/
theorem faulty_of_cellEntries (hp : writer.formatter.pattern.Renderable) {failure : Failure}
    (h : WriterSet.cellEntries unit writer cell = .error failure) :
    ∃ e, failure = .refused e ∧ Faulty writer cell e := by
  unfold WriterSet.cellEntries at h
  dsimp only at h
  cases hr : writer.binding.role with
  | key =>
    simp only [hr, bind_eq_error] at h
    rcases h with hs | ⟨s, -, ⟨⟩⟩
    obtain ⟨e, rfl, he⟩ := key_eq_error_iff.1 hs
    exact ⟨e, rfl, .of_seconds (by simp [Writer.givesKey, hr]) he⟩
  | plain =>
    simp only [hr, bind_eq_error] at h
    rcases h with hv | ⟨value, -, ⟨⟩⟩
    exact Faulty.of_coerce hp (fun hg => by simp [Writer.givesKey, hr] at hg) (by simp [hr]) hv
  | keyAndPlain =>
    simp only [hr, bind_eq_error] at h
    rcases h with hs | ⟨s, hs, hv | ⟨value, -, ⟨⟩⟩⟩
    · obtain ⟨e, rfl, he⟩ := key_eq_error_iff.1 hs
      exact ⟨e, rfl, .of_seconds (by simp [Writer.givesKey, hr]) he⟩
    · have htime := seconds_isOk_iff.1 ⟨s, key_eq_ok_iff.1 hs⟩
      exact Faulty.of_coerce hp (fun _ => htime) (by simp [hr]) hv

end Cells

/-! ## Rows -/

/-- A row that can be written : it has a cell for each column, and all are clean. -/
structure Writable (writers : List Writer) (row : Row) : Prop where
  width : row.length = writers.length
  clean : ∀ p ∈ writers.zip row, Clean p.1 p.2

/-- What is said of a row that cannot be written : it has another width, or this is its first cell
that is not clean, in the order of the columns. -/
inductive Refused (writers : List Writer) (row : Row) : EncodeError → Prop
  | width (h : row.length ≠ writers.length) :
    Refused writers row (.rowWidth writers.length row.length)
  | cell {before after : List (Writer × Cell)} {writer : Writer} {cell : Cell} {e : EncodeError}
    (hl : row.length = writers.length) (h : writers.zip row = before ++ (writer, cell) :: after)
    (hb : ∀ p ∈ before, Clean p.1 p.2) (he : Faulty writer cell e) :
    Refused writers row e

section Rows

variable {unit : TimeUnit} {writers : List Writer} {row : Row}

theorem rowEntries_isOk_iff (unit : TimeUnit)
    (hp : ∀ writer ∈ writers, writer.formatter.pattern.Renderable) :
    (∃ entries, WriterSet.rowEntries unit writers row = .ok entries) ↔
      ∀ p ∈ writers.zip row, Clean p.1 p.2 := by
  induction writers generalizing row with
  | nil => simp [WriterSet.rowEntries]
  | cons writer writers ih =>
    cases row with
    | nil => simp [WriterSet.rowEntries]
    | cons cell row =>
      obtain ⟨hw, hp⟩ := List.forall_mem_cons.1 hp
      rw [List.zip_cons_cons, List.forall_mem_cons, ← ih hp,
        ← cellEntries_isOk_iff unit hw, WriterSet.rowEntries]
      constructor
      · rintro ⟨entries, h⟩
        obtain ⟨first, hf, h⟩ := bind_eq_ok.1 h
        obtain ⟨rest, hr, -⟩ := bind_eq_ok.1 h
        exact ⟨⟨first, hf⟩, rest, hr⟩
      · rintro ⟨⟨first, hf⟩, rest, hr⟩
        exact ⟨_, bind_eq_ok.2 ⟨first, hf, bind_eq_ok.2 ⟨rest, hr, rfl⟩⟩⟩

/-- The cells are written one after the other, up to the first that is faulty. -/
theorem rowEntries_eq_error (hp : ∀ writer ∈ writers, writer.formatter.pattern.Renderable)
    {failure : Failure} (h : WriterSet.rowEntries unit writers row = .error failure) :
    ∃ before writer cell after e, failure = .refused e ∧
      writers.zip row = before ++ (writer, cell) :: after ∧
      (∀ p ∈ before, Clean p.1 p.2) ∧ Faulty writer cell e := by
  induction writers generalizing row with
  | nil => simp [WriterSet.rowEntries] at h
  | cons writer writers ih =>
    cases row with
    | nil => simp [WriterSet.rowEntries] at h
    | cons cell row =>
      obtain ⟨hw, hp⟩ := List.forall_mem_cons.1 hp
      rw [WriterSet.rowEntries] at h
      rcases bind_eq_error.1 h with hf | ⟨first, hf, h⟩
      · obtain ⟨e, rfl, he⟩ := faulty_of_cellEntries hw hf
        exact ⟨[], writer, cell, writers.zip row, e, rfl, rfl, by simp, he⟩
      · rcases bind_eq_error.1 h with hr | ⟨rest, -, ⟨⟩⟩
        obtain ⟨before, w, c, after, e, rfl, hz, hb, he⟩ := ih hp hr
        refine ⟨(writer, cell) :: before, w, c, after, e, rfl, ?_, ?_, he⟩
        · rw [List.zip_cons_cons, hz, List.cons_append]
        · exact List.forall_mem_cons.2 ⟨(cellEntries_isOk_iff unit hw).1 ⟨first, hf⟩, hb⟩

/-- A row is written if it can be. -/
theorem write_isOk_iff {set : WriterSet}
    (hp : ∀ writer ∈ set.writers, writer.formatter.pattern.Renderable) :
    (∃ written, set.write row = .ok written) ↔ Writable set.writers row := by
  constructor
  · rintro ⟨⟨record, after⟩, h⟩
    obtain ⟨hl, ⟨entries, he, -⟩, -⟩ := write_eq_ok h
    exact ⟨hl, (rowEntries_isOk_iff set.unit hp).1 ⟨entries, he⟩⟩
  · rintro ⟨hl, hc⟩
    obtain ⟨entries, he⟩ := (rowEntries_isOk_iff set.unit hp).2 hc
    rw [WriterSet.write, if_neg (by simpa [WriterSet.width] using hl)]
    cases set.generator <;> exact ⟨_, bind_eq_ok.2 ⟨entries, he, rfl⟩⟩

/-- What is said of a row that is not written. -/
theorem refused_of_write {set : WriterSet}
    (hp : ∀ writer ∈ set.writers, writer.formatter.pattern.Renderable) {failure : Failure}
    (h : set.write row = .error failure) :
    ∃ e, failure = .refused e ∧ Refused set.writers row e := by
  rw [WriterSet.write] at h
  split_ifs at h with hl
  · cases h
    exact ⟨_, rfl, .width hl⟩
  · rcases bind_eq_error.1 h with he | ⟨entries, -, h⟩
    · obtain ⟨before, writer, cell, after, e, rfl, hz, hb, he⟩ := rowEntries_eq_error hp he
      exact ⟨e, rfl, .cell (Decidable.not_not.1 hl) hz hb he⟩
    · split at h <;> cases h

end Rows

/-! ## Records -/

/-- Each row is written by writers that differ from the first ones in their generator alone. -/
theorem exists_write_of_mem_writeAll {schema : Schema} : ∀ {rows : List Row} {set : WriterSet},
    set.Sound schema → ∀ {row : Row} {result : Except Failure Packed},
      (row, result) ∈ rows.zip (set.writeAll rows) → ∃ now : WriterSet, now.Sound schema ∧
        now.writers = set.writers ∧ result = (now.write row).map Prod.fst
  | [], _, _, _, _, h => by simp at h
  | first :: rest, set, hs, row, result, h => by
    rw [WriterSet.writeAll] at h
    cases hw : set.write first with
    | error e =>
      rw [hw, List.zip_cons_cons] at h
      rcases List.mem_cons.1 h with he | h
      · cases he
        exact ⟨set, hs, rfl, by rw [hw]; rfl⟩
      · exact exists_write_of_mem_writeAll hs h
    | ok written =>
      obtain ⟨record, after⟩ := written
      rw [hw, List.zip_cons_cons] at h
      rcases List.mem_cons.1 h with he | h
      · cases he
        exact ⟨set, hs, rfl, by rw [hw]; rfl⟩
      · obtain ⟨hafter, heq⟩ := hs.write hw
        obtain ⟨now, hnow, hwriters, hresult⟩ := exists_write_of_mem_writeAll hafter h
        exact ⟨now, hnow, hwriters.trans heq, hresult⟩

/-- The columns stay where they are when one of them is promoted. -/
theorem asColumn_of_resolve {schema : Schema} {settings : Settings} {set : WriterSet}
    (h : WriterSet.resolve schema settings = .ok set) :
    set.writers.map Writer.asColumn = schema.columns := by
  obtain ⟨generator, standard, writers, ensured, -, -, hw, he, rfl⟩ := resolve_eq_ok_iff.1 h
  have hcolumns := asColumn_of_bindColumns hw
  rcases ensureKey_eq_ok he with ⟨rfl, -⟩ | ⟨-, -, before, writer, after, rfl, -, -, rfl⟩
  · exact hcolumns
  · rw [← hcolumns]
    simp [Writer.asColumn]

/-- A column that is the partition key and nothing else is written as an integer. -/
theorem target_of_bindColumns {settings : Settings} {standard : Formatter}
    {timeColumn : Option String} : ∀ {used : List String} {index : Nat} {columns : List Column}
    {writers : List Writer},
    bindColumns settings standard timeColumn used index columns = .ok writers →
    ∀ writer ∈ writers, writer.binding.role = .key → writer.binding.target = .long
  | _, _, [], _, h => by cases h; simp
  | _, _, _ :: _, _, h => by
    obtain ⟨writer, hw, h⟩ := bind_eq_ok.1 h
    obtain ⟨later, hl, h⟩ := bind_eq_ok.1 h
    cases h
    refine List.forall_mem_cons.2 ⟨fun hr => ?_, target_of_bindColumns hl⟩
    obtain ⟨formatter, -, hw⟩ := bind_eq_ok.1 hw
    obtain ⟨⟨role, key⟩, -, hw⟩ := bind_eq_ok.1 hw
    cases hw
    exact if_pos hr

theorem target_of_resolve {schema : Schema} {settings : Settings} {set : WriterSet}
    (h : WriterSet.resolve schema settings = .ok set) :
    ∀ writer ∈ set.writers, writer.binding.role = .key → writer.binding.target = .long := by
  obtain ⟨generator, standard, writers, ensured, -, -, hw, he, rfl⟩ := resolve_eq_ok_iff.1 h
  have htarget := target_of_bindColumns hw
  rcases ensureKey_eq_ok he with ⟨rfl, -⟩ | ⟨-, -, before, writer, after, rfl, -, -, rfl⟩
  · exact htarget
  · intro other ho hr
    rcases List.mem_append.1 ho with ho | ho
    · exact htarget other (by simp [ho]) hr
    rcases List.mem_cons.1 ho with rfl | ho
    · cases hr
    · exact htarget other (by simp [ho]) hr

/-- Each column has one entry in a record, which mirrors its cell. -/
def Mirrored (writers : List Writer) (row : Row) (fields : List (String × Packed)) : Prop :=
  ∀ p ∈ writers.zip row, ∃ value,
    fields.filter (·.1 = p.1.binding.key) = [(p.1.binding.key, value)] ∧
      Mirrors p.1.binding.target p.2 value

theorem mirrored_of_write {schema : Schema} {set after : WriterSet} (hs : set.Sound schema)
    (ht : ∀ writer ∈ set.writers, writer.binding.role = .key → writer.binding.target = .long)
    {row : Row} {record : Packed} (h : set.write row = .ok (record, after)) :
    ∃ fields, record = recordOf fields ∧ Mirrored set.writers row fields := by
  obtain ⟨fields, hf, hkeyed⟩ := keyed_of_write hs h
  refine ⟨fields, hf, fun ⟨writer, cell⟩ hp => ?_⟩
  obtain ⟨i, hi⟩ := List.mem_iff_getElem?.1 hp
  obtain ⟨hw, hc⟩ := List.getElem?_zip_eq_some.1 hi
  have hmem := List.mem_of_getElem? hw
  by_cases hr : writer.binding.role = .key
  · obtain ⟨seconds, htime⟩ := hkeyed.time
    rw [(hs.role_eq_key_iff writer hmem).1 hr, ht writer hmem hr]
    exact ⟨_, htime, Or.inr ⟨seconds, rfl⟩, nofun⟩
  · have hname : (schema.columns.map (·.name))[i]? = some writer.binding.column := by
      rw [← Schema.names, ← hs.columns_eq, List.getElem?_map, hw, Option.map_some]
    rw [List.getElem?_map] at hname
    obtain ⟨column, hcolumn, -⟩ := Option.map_eq_some_iff.1 hname
    obtain ⟨writer', hw', -, hentry⟩ := hkeyed.column i column hcolumn
    obtain rfl : writer' = writer := by simpa [hw] using hw'.symm
    obtain ⟨cell', value, hc', hv, hfilter⟩ := hentry hr
    obtain rfl : cell' = cell := by simpa [hc] using hc'.symm
    exact ⟨value, hfilter, mirrors_of_coerce hv⟩

/-- Let the columns of a schema with distinct names be resolved, with patterns that can be rendered.
A row that comes anywhere in a sequence is written if it has a cell for each column, the cell that
gives the partition key is an integer or a timestamp, and the other cells are convertible. Each
column then has one entry, of the kind of its target, which is nil for a null only. Any other row is
refused for its width, or for what is wrong with the first of its cells that is not clean. -/
theorem written_iff_writable {schema : Schema} (hs : schema.Distinct) {settings : Settings}
    {set : WriterSet} (h : WriterSet.resolve schema settings = .ok set)
    (hp : ∀ writer ∈ set.writers, writer.formatter.pattern.Renderable) {rows : List Row} {row : Row}
    {result : Except Failure Packed} (hr : (row, result) ∈ rows.zip (set.writeAll rows)) :
    set.writers.map Writer.asColumn = schema.columns ∧
      ((∃ record, result = .ok record) ↔ Writable set.writers row) ∧
      (∀ record, result = .ok record → ∃ fields, record = recordOf fields ∧
        Mirrored set.writers row fields) ∧
      ∀ failure, result = .error failure →
        ∃ e, failure = .refused e ∧ Refused set.writers row e := by
  refine ⟨asColumn_of_resolve h, ?_⟩
  have htarget := target_of_resolve h
  obtain ⟨now, hsound, hwriters, rfl⟩ := exists_write_of_mem_writeAll (sound_of_resolve hs h) hr
  rw [← hwriters] at hp htarget ⊢
  rw [← write_isOk_iff hp]
  cases hw : now.write row with
  | error failure =>
    refine ⟨by simp [Except.map], by simp [Except.map], ?_⟩
    rintro _ ⟨⟩
    exact refused_of_write hp hw
  | ok written =>
    obtain ⟨record, after⟩ := written
    refine ⟨by simp [Except.map], ?_, by simp [Except.map]⟩
    rintro _ ⟨⟩
    exact mirrored_of_write hsound htarget hw

/-! ## A text that is read as a number -/

/-- The column `price` has doubles, and is written as integers. -/
def pricedSchema : Schema :=
  ⟨[⟨"time", .long⟩, ⟨"price", .double⟩, ⟨"note", .json⟩]⟩

def pricedSettings : Settings :=
  { options := [("price", { target := some .long })] }

def pricedSet : WriterSet :=
  ⟨[⟨⟨0, "time", "time", .key, .long, .long⟩, .standard⟩,
    ⟨⟨1, "price", "price", .plain, .double, .long⟩, .standard⟩,
    ⟨⟨2, "note", "note", .plain, .json, .structured⟩, .standard⟩], .second, none⟩

/-- In the first row a text is read as an integer; the second row has no partition key, and a text
that is no integer. -/
def pricedRows : List Row :=
  [[.long 5, .string " 42 ", .json .null], [.null, .string "dear", .null]]

theorem written_priced :
    pricedSchema.Distinct ∧ WriterSet.resolve pricedSchema pricedSettings = .ok pricedSet ∧
      (∀ writer ∈ pricedSet.writers, writer.formatter.pattern.Renderable) ∧
      Writable pricedSet.writers pricedRows[0] ∧
      Refused pricedSet.writers pricedRows[1] (.nullTime "time") := by
  have hs : pricedSchema.Distinct := by decide
  have h : WriterSet.resolve pricedSchema pricedSettings = .ok pricedSet := by decide +kernel
  have hp : ∀ writer ∈ pricedSet.writers, writer.formatter.pattern.Renderable := by
    decide +kernel
  have hfirst : (pricedRows[0], .ok (recordOf [("time", .ofInt64 5), ("price", .ofInt64 42),
      ("note", .nil)])) ∈ pricedRows.zip (pricedSet.writeAll pricedRows) :=
    List.mem_of_getElem? (show _[0]? = _ from rfl)
  have hsecond : (pricedRows[1], .error (.refused (.nullTime "time"))) ∈
      pricedRows.zip (pricedSet.writeAll pricedRows) :=
    List.mem_of_getElem? (show _[1]? = _ from rfl)
  obtain ⟨-, hwritten, -⟩ := written_iff_writable hs h hp hfirst
  obtain ⟨-, -, -, hrefused⟩ := written_iff_writable hs h hp hsecond
  obtain ⟨e, he, hcell⟩ := hrefused _ rfl
  cases he
  exact ⟨hs, h, hp, hwritten.1 ⟨_, rfl⟩, hcell⟩

end BulkLoad.Record
