import Mathlib
import BulkLoad.Proofs.Record.Keys
import BulkLoad.Proofs.Rows.Objects

/-!
# Timestamp columns and the unit of longs

The unit is meant for longs, but a field of a timestamp column becomes a long as well, if it is a
number of seconds that fits in 64 bits and there is no instant at it
(`ofField_timestamp_eq_long_iff`). So where a timestamp column gives the partition key, the rows of
an input are refused in all units or in none, and a row that is written has the same record in two
units just if its time is not such a number (`alike_of_lines`). Where it is, no two units give the
same key (`unit_eq_of_beyond`).
-/

namespace BulkLoad.Record

variable {schema : Schema} {settings : Settings} {set : WriterSet} {fields : List (String × Json)}

/-- There is no instant at this number of seconds. -/
def Beyond (i : Int64) : Prop :=
  i.toInt < Calendar.firstSecond ∨ Calendar.lastSecond < i.toInt

/-! ## Cells of timestamp columns -/

theorem toInt64?_eq_some_iff {n : Whole} {i : Int64} : n.toInt64? = some i ↔ n = .ofInt64 i := by
  refine ⟨fun h => ?_, fun h => h ▸ Whole.toInt64?_ofInt64 i⟩
  unfold Whole.toInt64? at h
  split_ifs at h with hu
  obtain rfl := Option.some.inj h
  exact Whole.ext (Int64.toInt_ofInt_of_le n.lower hu).symm

theorem ofNumber?_whole_eq_none_iff {n : Whole} :
    Calendar.Instant.ofNumber? (.whole n) = none ↔
      n.val < Calendar.firstSecond ∨ Calendar.lastSecond < n.val := by
  rw [Calendar.Instant.ofNumber?, Calendar.Instant.ofEpoch?]
  by_cases hr : Calendar.firstSecond ≤ n.val ∧ n.val ≤ Calendar.lastSecond
  · rw [dif_pos ⟨hr.1, hr.2, by decide⟩, if_neg (by simp)]
    simp only [reduceCtorEq, false_iff]
    omega
  · rw [dif_neg fun h => hr ⟨h.1, h.2.1⟩]
    simp only [true_iff]
    omega

/-- A timestamp column has a long where a field is a number of seconds without an instant. -/
theorem ofField_timestamp_eq_long_iff {json : Json} {i : Int64} :
    Cell.ofField .timestamp json = .long i ↔ json = .number (.whole (.ofInt64 i)) ∧ Beyond i := by
  cases json with
  | number n =>
    cases n with
    | whole n =>
      have hnone : n = .ofInt64 i → (Beyond i ↔ Calendar.Instant.ofNumber? (.whole n) = none) := by
        rintro rfl
        rw [ofNumber?_whole_eq_none_iff, Beyond, Whole.val_ofInt64]
      rw [Json.number.injEq, Json.Number.whole.injEq, and_congr_right hnone,
        ← toInt64?_eq_some_iff, Cell.ofField]
      cases Calendar.Instant.ofNumber? (.whole n) with
      | some t => simp
      | none => cases ht : n.toInt64? <;> simp [Cell.ofNumber, ht]
    | double x =>
      rw [Cell.ofField]
      cases Calendar.Instant.ofNumber? (.double x) <;> simp [Cell.ofNumber]
  | string s =>
    rw [Cell.ofField]
    cases Calendar.Instant.ofText? s <;> simp
  | _ => simp [Cell.ofField]

/-- The cell that a column has in the row of an object. -/
def cellOf (fields : List (String × Json)) (column : Column) : Cell :=
  match Json.field? column.name fields with
  | some json => Cell.ofField column.type json
  | none => .null

/-- The time of an object is a number of seconds at which there is no instant. -/
def TimedBeyond (set : WriterSet) (fields : List (String × Json)) (i : Int64) : Prop :=
  Beyond i ∧ ∃ writer ∈ set.writers, writer.givesKey ∧
    Json.field? writer.binding.column fields = some (.number (.whole (.ofInt64 i)))

theorem mem_zip_rowOf_iff (hc : set.writers.map Writer.asColumn = schema.columns)
    {writer : Writer} {cell : Cell} :
    (writer, cell) ∈ set.writers.zip (schema.rowOf fields) ↔
      writer ∈ set.writers ∧ cellOf fields writer.asColumn = cell := by
  have hrow : schema.rowOf fields = set.writers.map (cellOf fields ∘ Writer.asColumn) := by
    rw [← List.map_map, hc]
    rfl
  rw [hrow, ← List.map_prod_left_eq_zip, List.mem_map]
  simp only [Prod.mk.injEq, Function.comp_apply]
  constructor
  · rintro ⟨w, hw, rfl, hcell⟩
    exact ⟨hw, hcell⟩
  · rintro ⟨hw, hcell⟩
    exact ⟨writer, hw, rfl, hcell⟩

/-- If only timestamp columns give the key, a long comes to give it in one way. -/
theorem longKey_rowOf_iff (hc : set.writers.map Writer.asColumn = schema.columns)
    (ht : ∀ writer ∈ set.writers, writer.givesKey → writer.binding.source = .timestamp)
    {i : Int64} :
    LongKey set.writers (schema.rowOf fields) i ↔ TimedBeyond set fields i := by
  have hcell {writer : Writer} (hw : writer ∈ set.writers) (hg : writer.givesKey) :
      cellOf fields writer.asColumn = .long i ↔
        Json.field? writer.binding.column fields = some (.number (.whole (.ofInt64 i))) ∧
          Beyond i := by
    unfold cellOf
    simp only [Writer.asColumn, ht writer hw hg]
    cases Json.field? writer.binding.column fields with
    | none => simp
    | some json => simp [ofField_timestamp_eq_long_iff]
  constructor
  · rintro ⟨writer, hp, hg⟩
    obtain ⟨hw, hl⟩ := (mem_zip_rowOf_iff hc).1 hp
    obtain ⟨hf, hb⟩ := (hcell hw hg).1 hl
    exact ⟨hb, writer, hw, hg, hf⟩
  · rintro ⟨hb, writer, hw, hg, hf⟩
    exact ⟨writer, (mem_zip_rowOf_iff hc).2 ⟨hw, (hcell hw hg).2 ⟨hf, hb⟩⟩, hg⟩

/-! ## Units -/

/-- So far from 1970 no two units give a long the same key. -/
theorem unit_eq_of_beyond {i : Int64} (hb : Beyond i) {unit other : TimeUnit} {column : String}
    (h : unit.seconds column (.long i) = other.seconds column (.long i)) : unit = other := by
  have hquotient : i.toInt / unit.perSecond = i.toInt / other.perSecond := by
    have hkeys := congrArg Int64.toInt (Except.ok.inj h)
    rwa [toInt_ofInt_ediv, toInt_ofInt_ediv] at hkeys
  simp only [Beyond, Calendar.firstSecond, Calendar.lastSecond] at hb
  cases unit <;> cases other <;> first | rfl | (simp only [TimeUnit.perSecond] at hquotient; omega)

/-- Let only timestamp columns give the partition key. Then each object of an input is written in
another unit if it is in this one, and else refused for the same fault. What it is written as is the
same in both units, except where its time is a number of seconds at which there is no instant. -/
theorem alike_of_lines (h : WriterSet.resolve schema settings = .ok set)
    (ht : ∀ writer ∈ set.writers, writer.givesKey → writer.binding.source = .timestamp)
    (unit : TimeUnit) (words : String → String) {bytes : List UInt8} {i : Nat}
    (hi : (objectsOf bytes)[i]? = some fields) :
    WriterSet.resolve schema { settings with unit } = .ok { set with unit } ∧
      ∃ result result', (set.writeAll (readRows schema words bytes))[i]? = some result ∧
        ({ set with unit }.writeAll (readRows schema words bytes))[i]? = some result' ∧
        verdict result = verdict result' ∧
        (result = result' ↔
          settings.unit = unit ∨ (∃ e, result = .error e) ∨ ∀ j, ¬ TimedBeyond set fields j) := by
  have hlong := @longKey_rowOf_iff schema set fields (asColumn_of_resolve h) ht
  have hrow : (readRows schema words bytes)[i]? = some (schema.rowOf fields) := by
    rw [readRows_eq, List.getElem?_map, hi, Option.map_some]
  obtain ⟨generator, -, hu, ho⟩ := side_by_side unit (readRows schema words bytes) set hrow
  have hunit := unit_of_resolve h
  have hverdict : verdict (({ set with generator }.write (schema.rowOf fields)).map Prod.fst) =
      verdict (({ set with unit, generator }.write (schema.rowOf fields)).map Prod.fst) := by
    rw [verdict_map, verdict_map]
    exact verdict_write { set with generator } unit (schema.rowOf fields)
  refine ⟨resolve_withUnit h unit, _, _, hu, ho, hverdict, ?_, ?_⟩
  · intro hsame
    cases hw : ({ set with generator }.write (schema.rowOf fields)).map Prod.fst with
    | error e => exact Or.inr (Or.inl ⟨e, rfl⟩)
    | ok record =>
      by_cases hb : ∃ j, TimedBeyond set fields j
      · -- The two records show the keys, and these tell the units apart.
        obtain ⟨j, hj⟩ := hb
        obtain ⟨writer, hp, hg⟩ := hlong.2 hj
        have hkeys := seconds_eq_of_write_eq hw (hsame.symm.trans hw) hp hg
        exact Or.inl (hunit.symm.trans (unit_eq_of_beyond hj.1 hkeys))
      · exact Or.inr (Or.inr (not_exists.1 hb))
  · rintro (rfl | ⟨e, he⟩ | hn)
    · rw [← hunit]
    · rcases verdict_eq_iff.1 hverdict with ⟨_, _, hw, -⟩ | ⟨_, hw, hw'⟩
      · cases he.symm.trans hw
      · exact hw.trans hw'.symm
    · exact write_congr _ unit fun j hj => hn j (hlong.1 hj)

/-! ## Times without an instant -/

/-- Two objects with a blank line between them ; there is no instant at the time of the second. -/
def farLines : List UInt8 :=
  Text.Utf8.encode "\x7b\"time\":7\x7d\n\n\x7b\"time\":10000000000000\x7d\n"

def instantSchema : Schema :=
  ⟨[⟨"time", .timestamp⟩]⟩

def instantSet : WriterSet :=
  ⟨[⟨⟨0, "time", "time", .key, .timestamp, .long⟩, .standard⟩], .second, none⟩

theorem objectsOf_farLines : objectsOf farLines =
    [[("time", .number (.whole (.ofInt64 7)))],
      [("time", .number (.whole (.ofInt64 10000000000000)))]] := by
  cbv

theorem readRows_farLines : readRows instantSchema id farLines =
    [[.timestamp ⟨7, 0, by decide, by decide, by decide⟩], [.long 10000000000000]] := by
  rw [readRows_eq, objectsOf_farLines]
  cbv

theorem resolve_instantSchema : WriterSet.resolve instantSchema {} = .ok instantSet := by
  decide +kernel

theorem instantSet_timestamp : ∀ writer ∈ instantSet.writers, writer.givesKey →
    writer.binding.source = .timestamp := by
  decide

/-- The first object is the same record in seconds and in milliseconds. -/
theorem alike_near :
    WriterSet.resolve instantSchema {} = .ok instantSet ∧
      (∀ writer ∈ instantSet.writers, writer.givesKey → writer.binding.source = .timestamp) ∧
      (objectsOf farLines)[0]? = some [("time", .number (.whole (.ofInt64 7)))] ∧
      (instantSet.writeAll (readRows instantSchema id farLines))[0]? =
        ({ instantSet with unit := .milli }.writeAll (readRows instantSchema id farLines))[0]? := by
  have hi : (objectsOf farLines)[0]? = some [("time", .number (.whole (.ofInt64 7)))] := by
    rw [objectsOf_farLines]
    rfl
  obtain ⟨-, result, result', hu, ho, -, hsame⟩ :=
    alike_of_lines resolve_instantSchema instantSet_timestamp .milli id hi
  have hnear : ∀ j, ¬ TimedBeyond instantSet [("time", .number (.whole (.ofInt64 7)))] j := by
    rintro j ⟨hb, writer, hw, -, hf⟩
    obtain rfl := List.mem_singleton.1 hw
    have hseven : Whole.ofInt64 7 = Whole.ofInt64 j :=
      Json.Number.whole.inj (Json.number.inj (Option.some.inj hf))
    have hj : j.toInt = 7 := (congrArg Whole.val hseven).symm
    simp only [Beyond, Calendar.firstSecond, Calendar.lastSecond] at hb
    omega
  rw [hu, ho, hsame.2 (Or.inr (Or.inr hnear))]
  exact ⟨resolve_instantSchema, instantSet_timestamp, hi, rfl⟩

/-- The second one has another partition key in milliseconds, though its time is that of a timestamp
column. -/
theorem unlike_far :
    WriterSet.resolve instantSchema {} = .ok instantSet ∧
      WriterSet.resolve instantSchema { unit := .milli } =
        .ok { instantSet with unit := .milli } ∧
      (∀ writer ∈ instantSet.writers, writer.givesKey → writer.binding.source = .timestamp) ∧
      instantSet.writeAll (readRows instantSchema id farLines) =
        [.ok (recordOf [("time", .ofInt64 7)]),
          .ok (recordOf [("time", .ofInt64 10000000000000)])] ∧
      { instantSet with unit := .milli }.writeAll (readRows instantSchema id farLines) =
        [.ok (recordOf [("time", .ofInt64 7)]), .ok (recordOf [("time", .ofInt64 10000000000)])] ∧
      recordOf [("time", .ofInt64 10000000000000)] ≠ recordOf [("time", .ofInt64 10000000000)] := by
  rw [readRows_farLines]
  refine ⟨resolve_instantSchema, by decide +kernel, instantSet_timestamp, by cbv, by cbv, ?_⟩
  simp [recordOf, Packed.ofInt64, Whole.ext_iff]

end BulkLoad.Record
