import BulkLoad.Proofs.Record.Resolve
import Mathlib.Data.List.Basic

/-!
# The entries of a record

A record is a map with a text for each key (`fieldsOf`). Each cell contributes the entries that
the role of its column asks for (`Contributes`), so the keys of a record are those of the
writers, `Writer.keys`, and one more if the partition key comes from a generator.

With `Sound` writers these keys are distinct : outside `time` they are keys of columns, and
`time` is counted once for each source of partition keys, of which there is one. The capstone
`keyed_of_mem_writeAll` holds of every record that is written in a sequence of rows, some of
which may be refused.
-/

namespace BulkLoad.Record

/-- The record with the given entries. -/
def recordOf (fields : List (String × Packed)) : Packed :=
  .map (fields.map fun field => (.text field.1, field.2))

/-- The entries of a cell, by the role of its column. -/
inductive Contributes (writer : Writer) (cell : Cell) : List (String × Packed) → Prop
  | key (seconds : Int64) (hr : writer.binding.role = .key) :
    Contributes writer cell [(timeKey, .ofInt64 seconds)]
  | plain (value : Packed) (hr : writer.binding.role = .plain)
    (hv : coerce writer.binding.column cell writer.binding.target writer.formatter = .ok value) :
    Contributes writer cell [(writer.binding.key, value)]
  | keyAndPlain (seconds : Int64) (value : Packed) (hr : writer.binding.role = .keyAndPlain)
    (hv : coerce writer.binding.column cell writer.binding.target writer.formatter = .ok value) :
    Contributes writer cell [(writer.binding.key, value), (timeKey, .ofInt64 seconds)]

/-- The keys that a column has in a record. -/
def Writer.keys (writer : Writer) : List String :=
  match writer.binding.role with
  | .key => [timeKey]
  | .plain => [writer.binding.key]
  | .keyAndPlain => [writer.binding.key, timeKey]

namespace Contributes

variable {writer : Writer} {cell : Cell} {fields : List (String × Packed)}

theorem map_fst (h : Contributes writer cell fields) : fields.map Prod.fst = writer.keys := by
  cases h with
  | key _ hr | plain _ hr | keyAndPlain _ _ hr => simp [Writer.keys, hr]

/-- A column that gives the partition key has an entry `time` with an integer. -/
theorem time_mem (h : Contributes writer cell fields) (hg : writer.givesKey) :
    ∃ seconds, (timeKey, Packed.ofInt64 seconds) ∈ fields := by
  cases h with
  | key seconds | keyAndPlain seconds => exact ⟨seconds, by simp⟩
  | plain _ hr => simp [Writer.givesKey, hr] at hg

/-- A column that is more than the partition key has an entry with its cell. -/
theorem value_mem (h : Contributes writer cell fields) (hr : writer.binding.role ≠ .key) :
    ∃ value, coerce writer.binding.column cell writer.binding.target writer.formatter =
      .ok value ∧ (writer.binding.key, value) ∈ fields := by
  cases h with
  | key _ hk => exact absurd hk hr
  | plain value _ hv | keyAndPlain _ value _ hv => exact ⟨value, hv, by simp⟩

end Contributes

theorem cellEntries_eq_ok {unit : TimeUnit} {writer : Writer} {cell : Cell}
    {entries : List (Packed × Packed)}
    (h : WriterSet.cellEntries unit writer cell = .ok entries) :
    ∃ fields, Contributes writer cell fields ∧ recordOf fields = .map entries := by
  unfold WriterSet.cellEntries at h
  dsimp only at h
  split at h
  · next hr =>
    obtain ⟨s, -, h⟩ := bind_eq_ok.1 h
    cases h
    exact ⟨_, .key s hr, rfl⟩
  · next hr =>
    obtain ⟨value, hv, h⟩ := bind_eq_ok.1 h
    cases h
    exact ⟨_, .plain value hr hv, rfl⟩
  · next hr =>
    obtain ⟨s, -, h⟩ := bind_eq_ok.1 h
    obtain ⟨value, hv, h⟩ := bind_eq_ok.1 h
    cases h
    exact ⟨_, .keyAndPlain s value hr hv, rfl⟩

/-- The entries of a row : those of its cells, in the order of the columns. -/
theorem rowEntries_eq_ok {unit : TimeUnit} {writers : List Writer} {row : Row}
    {entries : List (Packed × Packed)} (hl : row.length = writers.length)
    (h : WriterSet.rowEntries unit writers row = .ok entries) :
    ∃ fields, recordOf fields = .map entries ∧
      fields.map Prod.fst = writers.flatMap Writer.keys ∧
      ∀ p ∈ writers.zip row, ∃ part, Contributes p.1 p.2 part ∧ part ⊆ fields := by
  induction writers generalizing row entries with
  | nil => cases h; exact ⟨[], rfl, rfl, by simp⟩
  | cons writer writers ih =>
    obtain ⟨cell, row, rfl⟩ := List.exists_cons_of_length_eq_add_one hl
    rw [WriterSet.rowEntries] at h
    obtain ⟨first, hf, h⟩ := bind_eq_ok.1 h
    obtain ⟨rest, hr, h⟩ := bind_eq_ok.1 h
    cases h
    obtain ⟨part, hp, hpart⟩ := cellEntries_eq_ok hf
    obtain ⟨fields, hrest, hkeys, hzip⟩ := ih (by simpa using hl) hr
    refine ⟨part ++ fields, ?_, ?_, ?_⟩
    · simp only [recordOf, Packed.map.injEq] at hpart hrest ⊢
      rw [List.map_append, hpart, hrest]
    · rw [List.map_append, hp.map_fst, hkeys, List.flatMap_cons]
    · rw [List.zip_cons_cons]
      rintro p (_ | ⟨_, hmem⟩)
      · exact ⟨part, hp, List.subset_append_left _ _⟩
      · obtain ⟨other, ho, hsub⟩ := hzip p hmem
        exact ⟨other, ho, List.subset_append_of_subset_right _ hsub⟩

/-! ## Counting keys -/

/-- Outside `time` the keys of a record are keys of columns. -/
theorem count_keys_le {key : String} (hk : key ≠ timeKey) : ∀ writers : List Writer,
    (writers.flatMap Writer.keys).count key ≤ (writers.map (·.binding.key)).count key
  | [] => Nat.le_refl _
  | writer :: rest => by
    have ih := count_keys_le hk rest
    have hw : writer.keys.count key ≤ [writer.binding.key].count key := by
      have ht : timeKey ≠ key := hk.symm
      unfold Writer.keys
      split <;> simp [List.count_cons, ht]
    rw [List.flatMap_cons, List.count_append, List.map_cons, ← List.singleton_append,
      List.count_append]
    exact Nat.add_le_add hw ih

/-- The key `time` is there once for each column that gives the partition key. -/
theorem count_timeKey : ∀ {writers : List Writer},
    (∀ writer ∈ writers, writer.binding.role = .key ↔ writer.binding.key = timeKey) →
    (writers.flatMap Writer.keys).count timeKey = writers.countP Writer.givesKey
  | [], _ => rfl
  | writer :: rest, h => by
    obtain ⟨hw, hr⟩ := List.forall_mem_cons.1 h
    rw [List.flatMap_cons, List.count_append, count_timeKey hr, List.countP_cons, Nat.add_comm]
    congr 1
    unfold Writer.keys Writer.givesKey
    split <;> simp_all

/-- In a record without repeated keys an entry is the only one of its key. -/
theorem filter_eq_singleton : ∀ {fields : List (String × Packed)} {key : String}
    {value : Packed}, (fields.map Prod.fst).Nodup → (key, value) ∈ fields →
    fields.filter (·.1 = key) = [(key, value)]
  | [], _, _, _, hm => by cases hm
  | (k, v) :: rest, key, value, hn, hm => by
    rw [List.map_cons, List.nodup_cons] at hn
    rcases List.mem_cons.1 hm with he | hm
    · cases he
      have hrest : rest.filter (·.1 = k) = [] := by
        rw [List.filter_eq_nil_iff]
        intro field hf hkey
        exact hn.1 (List.mem_map.2 ⟨field, hf, by simpa using hkey⟩)
      rw [List.filter_cons_of_pos (by simp), hrest]
    · have hne : k ≠ key := by
        rintro rfl
        exact hn.1 (List.mem_map.2 ⟨_, hm, rfl⟩)
      rw [List.filter_cons_of_neg (by simpa using hne), filter_eq_singleton hn.2 hm]

/-! ## Records -/

/-- What holds of the entries of a record that writers make of a row. -/
structure Keyed (schema : Schema) (writers : List Writer) (row : Row)
    (fields : List (String × Packed)) : Prop where
  /-- No key stands twice in the record. -/
  nodup : (fields.map Prod.fst).Nodup
  /-- One entry has the partition key, which is an integer. -/
  time : ∃ seconds, fields.filter (·.1 = timeKey) = [(timeKey, .ofInt64 seconds)]
  /-- No two columns share a key. -/
  nodup_bindings : (writers.map (·.binding.key)).Nodup
  /-- A column that is not the partition key and nothing else has one entry, with its cell. -/
  column : ∀ (i : Nat) (column : Column), schema.columns[i]? = some column →
    ∃ writer : Writer, writers[i]? = some writer ∧ writer.binding.column = column.name ∧
      (writer.binding.role ≠ .key → ∃ cell value, row[i]? = some cell ∧
        coerce column.name cell writer.binding.target writer.formatter = .ok value ∧
        fields.filter (·.1 = writer.binding.key) = [(writer.binding.key, value)])

/-- The steps of `write` : the entry of the generator comes first. -/
theorem write_eq_ok {set after : WriterSet} {row : Row} {record : Packed}
    (h : set.write row = .ok (record, after)) :
    row.length = set.writers.length ∧
      (∃ entries, WriterSet.rowEntries set.unit set.writers row = .ok entries ∧
        record = .map ((set.generator.toList.map fun g => WriterSet.keyEntry g.next.1) ++
          entries)) ∧
      after = { set with generator := set.generator.map (·.next.2) } := by
  unfold WriterSet.write at h
  dsimp only at h
  split_ifs at h with hl
  · cases h
  obtain ⟨entries, he, h⟩ := bind_eq_ok.1 h
  refine ⟨Decidable.not_not.1 hl, ?_⟩
  rcases set with ⟨writers, unit, _ | generator⟩ <;> cases h <;>
    exact ⟨⟨entries, he, rfl⟩, rfl⟩

/-- Writing a row keeps the writers sound. -/
theorem WriterSet.Sound.write {schema : Schema} {set after : WriterSet} (hs : set.Sound schema)
    {row : Row} {record : Packed} (h : set.write row = .ok (record, after)) :
    after.Sound schema ∧ after.writers = set.writers := by
  obtain ⟨-, -, rfl⟩ := write_eq_ok h
  refine ⟨⟨hs.columns_eq, hs.nodup_keys, hs.role_eq_key_iff, ?_⟩, rfl⟩
  have hone := hs.one_source
  cases hg : set.generator <;> simpa [hg] using hone

/-- The keys of a record : `time` is counted once, any other key once at most. -/
theorem nodup_keys_of_sound {schema : Schema} {set : WriterSet} (hs : set.Sound schema) :
    (set.generator.toList.map (fun _ => timeKey) ++ set.writers.flatMap Writer.keys).Nodup := by
  rw [List.nodup_iff_count_le_one]
  intro key
  have hgen : (set.generator.toList.map fun _ => timeKey) =
      List.replicate set.generator.toList.length timeKey := List.map_const' ..
  rw [List.count_append, hgen, List.count_replicate]
  by_cases hk : key = timeKey
  · subst hk
    rw [count_timeKey hs.role_eq_key_iff]
    have := hs.one_source
    simp only [beq_self_eq_true, if_true]
    omega
  · have hle := Nat.le_trans (count_keys_le hk set.writers)
      (List.nodup_iff_count_le_one.1 hs.nodup_keys key)
    have hne : timeKey ≠ key := fun he => hk he.symm
    simpa [hne] using hle

/-- Each column contributes its cell to the entries of a row. -/
theorem exists_contributes {writers : List Writer} {row : Row} {fields : List (String × Packed)}
    (hl : row.length = writers.length)
    (hzip : ∀ p ∈ writers.zip row, ∃ part, Contributes p.1 p.2 part ∧ part ⊆ fields) {i : Nat}
    {writer : Writer} (hw : writers[i]? = some writer) :
    ∃ cell part, row[i]? = some cell ∧ Contributes writer cell part ∧ part ⊆ fields := by
  obtain ⟨hi, -⟩ := List.getElem?_eq_some_iff.1 hw
  have hc : row[i]? = some row[i] := List.getElem?_eq_getElem (hl ▸ hi)
  have hmem : (writer, row[i]) ∈ writers.zip row :=
    List.mem_of_getElem? (List.getElem?_zip_eq_some.2 ⟨hw, hc⟩)
  obtain ⟨part, hp, hsub⟩ := hzip _ hmem
  exact ⟨row[i], part, hc, hp, hsub⟩

/-- A record that sound writers write is keyed. -/
theorem keyed_of_write {schema : Schema} {set after : WriterSet} (hs : set.Sound schema)
    {row : Row} {record : Packed} (h : set.write row = .ok (record, after)) :
    ∃ fields, record = recordOf fields ∧ Keyed schema set.writers row fields := by
  obtain ⟨hl, ⟨entries, he, rfl⟩, -⟩ := write_eq_ok h
  obtain ⟨fields, hf, hkeys, hzip⟩ := rowEntries_eq_ok hl he
  set generated := set.generator.toList.map fun g => (timeKey, Packed.ofInt64 g.next.1)
  have hn : ((generated ++ fields).map Prod.fst).Nodup := by
    have := nodup_keys_of_sound hs
    rw [List.map_append, hkeys]
    simpa [generated, Function.comp_def] using this
  refine ⟨generated ++ fields, ?_, hn, ?_, hs.nodup_keys, ?_⟩
  · simp only [recordOf, Packed.map.injEq] at hf ⊢
    rw [List.map_append, hf]
    simp [generated, WriterSet.keyEntry, Function.comp_def]
  · obtain ⟨seconds, hmem⟩ : ∃ s, (timeKey, Packed.ofInt64 s) ∈ generated ++ fields := by
      have hone := hs.one_source
      cases hg : set.generator with
      | some g => exact ⟨g.next.1, by simp [generated, hg]⟩
      | none =>
        rw [hg, Option.toList_none, List.length_nil, Nat.add_zero] at hone
        obtain ⟨writer, hw, hgives⟩ := List.countP_pos_iff.1 (hone ▸ Nat.one_pos)
        obtain ⟨i, hi⟩ := List.mem_iff_getElem?.1 hw
        obtain ⟨cell, part, -, hp, hsub⟩ := exists_contributes hl hzip hi
        obtain ⟨s, hmem⟩ := hp.time_mem hgives
        exact ⟨s, List.mem_append_right _ (hsub hmem)⟩
    exact ⟨seconds, filter_eq_singleton hn hmem⟩
  · intro i column hc
    have hname : (set.writers.map (·.binding.column))[i]? = some column.name := by
      rw [hs.columns_eq, Schema.names, List.getElem?_map, hc, Option.map_some]
    rw [List.getElem?_map] at hname
    obtain ⟨writer, hw, hcolumn⟩ := Option.map_eq_some_iff.1 hname
    refine ⟨writer, hw, hcolumn, fun hr => ?_⟩
    obtain ⟨cell, part, hcell, hp, hsub⟩ := exists_contributes hl hzip hw
    obtain ⟨value, hv, hmem⟩ := hp.value_mem hr
    exact ⟨cell, value, hcell, hcolumn ▸ hv,
      filter_eq_singleton hn (List.mem_append_right _ (hsub hmem))⟩

/-- Records that sound writers write one after the other are keyed. -/
theorem keyed_of_sound {schema : Schema} : ∀ {rows : List Row} {set : WriterSet},
    set.Sound schema → ∀ {row : Row} {record : Packed},
      (row, Except.ok record) ∈ rows.zip (set.writeAll rows) →
        ∃ fields, record = recordOf fields ∧ Keyed schema set.writers row fields
  | [], _, _, _, _, h => by simp at h
  | first :: rest, set, hs, row, record, h => by
    rw [WriterSet.writeAll] at h
    cases hw : set.write first with
    | error e =>
      rw [hw, List.zip_cons_cons] at h
      rcases List.mem_cons.1 h with he | h
      · cases he
      · exact keyed_of_sound hs h
    | ok written =>
      obtain ⟨r, after⟩ := written
      rw [hw, List.zip_cons_cons] at h
      rcases List.mem_cons.1 h with he | h
      · cases he
        exact keyed_of_write hs hw
      · obtain ⟨hafter, heq⟩ := hs.write hw
        exact heq ▸ keyed_of_sound hafter h

/-- Let a schema have distinct names, and let its columns be resolved. In every record that is
then written, whatever rows came before it, no key stands twice, one entry has the partition key,
which is an integer, and each column that is not the partition key and nothing else has one entry,
under a key of its own. -/
theorem keyed_of_mem_writeAll {schema : Schema} (hs : schema.Distinct) {settings : Settings}
    {set : WriterSet} (h : WriterSet.resolve schema settings = .ok set) {rows : List Row}
    {row : Row} {record : Packed} (hr : (row, Except.ok record) ∈ rows.zip (set.writeAll rows)) :
    ∃ fields, record = recordOf fields ∧ Keyed schema set.writers row fields :=
  keyed_of_sound (sound_of_resolve hs h) hr

/-! ## A column `time` that makes way -/

/-- Columns among which `time` is a text, and its first new name is taken. -/
def crowdedSchema : Schema :=
  ⟨[⟨"time", .string⟩, ⟨"time_", .long⟩, ⟨"at", .timestamp⟩]⟩

/-- The writers when the column `time_` gives the partition key. -/
def crowdedSet : WriterSet :=
  ⟨[⟨⟨0, "time", "time__", .plain, .string, .string⟩, .standard⟩,
    ⟨⟨1, "time_", "time_", .keyAndPlain, .long, .long⟩, .standard⟩,
    ⟨⟨2, "at", "at", .plain, .timestamp, .string⟩, .standard⟩], .second, none⟩

/-- A row without a partition key, and one with. -/
def crowdedRows : List Row :=
  [[.string "a", .null, .null], [.string "b", .long 7, .null]]

/-- The record of the second row. -/
def crowdedFields : List (String × Packed) :=
  [("time__", .text "b"), ("time_", .ofInt64 7), ("time", .ofInt64 7), ("at", .nil)]

theorem keyed_crowded :
    crowdedSchema.Distinct ∧
      WriterSet.resolve crowdedSchema { timeColumn := some "time_" } = .ok crowdedSet ∧
      (crowdedRows[1], .ok (recordOf crowdedFields)) ∈
        crowdedRows.zip (crowdedSet.writeAll crowdedRows) ∧
      ∃ fields, recordOf crowdedFields = recordOf fields ∧
        Keyed crowdedSchema crowdedSet.writers crowdedRows[1] fields := by
  have hs : crowdedSchema.Distinct := by decide
  have h : WriterSet.resolve crowdedSchema { timeColumn := some "time_" } = .ok crowdedSet := by
    decide +kernel
  have hr : (crowdedRows[1], .ok (recordOf crowdedFields)) ∈
      crowdedRows.zip (crowdedSet.writeAll crowdedRows) :=
    List.mem_of_getElem? (show _[1]? = _ from rfl)
  exact ⟨hs, h, hr, keyed_of_mem_writeAll hs h hr⟩

end BulkLoad.Record
