import BulkLoad.Proofs.Record.Conversion
import BulkLoad.Proofs.Record.Sequence

/-!
# What the unit of time has a bearing on

Writers that differ in their unit alone refuse the same rows, and for the same faults
(`verdict_write`). Where no long gives the partition key they write the same records
(`write_congr`), and where one does, the records show which key it gives in either unit
(`seconds_eq_of_rowEntries_eq`).

So the two stay side by side through a sequence of rows : their generators move on together, and
each row is written by both with the same generator (`side_by_side`).
-/

namespace BulkLoad.Record

variable {unit other : TimeUnit} {writer : Writer} {cell : Cell} {writers : List Writer} {row : Row}
  {entries : List (Packed × Packed)}

/-- What a result says of a row : whether it is written, and if not, what is wrong with it. -/
def verdict {α : Type} (result : Except Failure α) : Except Failure Unit :=
  result.map fun _ => ()

theorem verdict_eq_iff {α β : Type} {x : Except Failure α} {y : Except Failure β} :
    verdict x = verdict y ↔ (∃ a b, x = .ok a ∧ y = .ok b) ∨ ∃ e, x = .error e ∧ y = .error e := by
  cases x <;> cases y <;> simp [verdict, Except.map, eq_comm]

theorem verdict_map {α β : Type} {x : Except Failure α} (f : α → β) :
    verdict (x.map f) = verdict x := by
  cases x <;> rfl

/-- The row has a long where the partition key comes from. -/
def LongKey (writers : List Writer) (row : Row) (i : Int64) : Prop :=
  ∃ writer, (writer, .long i) ∈ writers.zip row ∧ writer.givesKey

/-! ## Cells -/

theorem keyEntry_injective : Function.Injective WriterSet.keyEntry := by
  intro s r h
  simp only [WriterSet.keyEntry, Packed.ofInt64, Prod.mk.injEq, Packed.int.injEq] at h
  have hval : (Whole.ofInt64 s).val = (Whole.ofInt64 r).val := by rw [h.2]
  exact Int64.toInt_inj.1 hval

/-- The entries of a cell, by the role of its column. -/
theorem cellEntries_eq_ok_iff :
    WriterSet.cellEntries unit writer cell = .ok entries ↔
      (writer.binding.role = .key ∧ ∃ s, unit.seconds writer.binding.column cell = .ok s ∧
        entries = [WriterSet.keyEntry s]) ∨
      (writer.binding.role = .plain ∧ ∃ value,
        coerce writer.binding.column cell writer.binding.target writer.formatter = .ok value ∧
        entries = [(.text writer.binding.key, value)]) ∨
      (writer.binding.role = .keyAndPlain ∧ ∃ s value,
        unit.seconds writer.binding.column cell = .ok s ∧
        coerce writer.binding.column cell writer.binding.target writer.formatter = .ok value ∧
        entries = [(.text writer.binding.key, value), WriterSet.keyEntry s]) := by
  unfold WriterSet.cellEntries
  dsimp only
  simp only [@eq_comm _ entries]
  cases writer.binding.role with
  | plain => simp [bind_eq_ok, pure, Except.pure]
  | key | keyAndPlain =>
    cases unit.seconds writer.binding.column cell <;> simp [bind_eq_ok, pure, Except.pure]

/-- The last entry of a cell that gives the key is its key. -/
theorem getLast?_of_cellEntries (hg : writer.givesKey)
    (h : WriterSet.cellEntries unit writer cell = .ok entries) :
    ∃ s, unit.seconds writer.binding.column cell = .ok s ∧
      entries.getLast? = some (WriterSet.keyEntry s) := by
  rcases cellEntries_eq_ok_iff.1 h with ⟨-, s, hs, rfl⟩ | ⟨hr, -⟩ | ⟨-, s, value, hs, -, rfl⟩
  · exact ⟨s, hs, rfl⟩
  · simp [Writer.givesKey, hr] at hg
  · exact ⟨s, hs, rfl⟩

theorem length_of_cellEntries (h : WriterSet.cellEntries unit writer cell = .ok entries) :
    entries.length = writer.keys.length := by
  obtain ⟨fields, hc, hf⟩ := cellEntries_eq_ok h
  rw [← hc.map_fst, List.length_map, ← Packed.map.inj hf, List.length_map]

/-- Only a long is another key in another unit. -/
theorem seconds_cases (unit other : TimeUnit) (column : String) (cell : Cell) :
    (∃ i, cell = .long i) ∨ unit.seconds column cell = other.seconds column cell := by
  cases cell with
  | long i => exact Or.inl ⟨i, rfl⟩
  | _ => exact Or.inr rfl

theorem cellEntries_congr (unit other : TimeUnit) (h : writer.givesKey → ∀ i, cell ≠ .long i) :
    WriterSet.cellEntries unit writer cell = WriterSet.cellEntries other writer cell := by
  have hseconds (hr : writer.binding.role ≠ .plain) :
      unit.seconds writer.binding.column cell = other.seconds writer.binding.column cell :=
    (seconds_cases unit other _ cell).resolve_left fun ⟨i, hi⟩ =>
      h (by simpa [Writer.givesKey] using hr) i hi
  unfold WriterSet.cellEntries
  cases hr : writer.binding.role with
  | plain => simp only [hr]
  | key | keyAndPlain => simp only [hr, hseconds (by simp [hr])]

/-- A cell is written in one unit if it is in the other. -/
theorem verdict_cellEntries (unit other : TimeUnit) (writer : Writer) (cell : Cell) :
    verdict (WriterSet.cellEntries unit writer cell) =
      verdict (WriterSet.cellEntries other writer cell) := by
  by_cases hl : ∃ i, cell = .long i
  · obtain ⟨i, rfl⟩ := hl
    obtain ⟨s, hs⟩ : ∃ s, unit.seconds writer.binding.column (.long i) = .ok s := ⟨_, rfl⟩
    obtain ⟨r, hr⟩ : ∃ r, other.seconds writer.binding.column (.long i) = .ok r := ⟨_, rfl⟩
    unfold WriterSet.cellEntries
    dsimp only
    rw [hs, hr]
    -- Not by reduction, which would go on to compare the two keys.
    cases writer.binding.role <;>
      cases coerce writer.binding.column (.long i) writer.binding.target writer.formatter <;>
        simp [verdict, Except.map, bind, Except.bind, pure, Except.pure]
  · rw [cellEntries_congr unit other fun _ i hi => hl ⟨i, hi⟩]

/-! ## Rows -/

/-- Rows without a long as the key have the same entries in all units. -/
theorem rowEntries_congr (unit other : TimeUnit) : ∀ {writers : List Writer} {row : Row},
    (∀ i, ¬ LongKey writers row i) →
    WriterSet.rowEntries unit writers row = WriterSet.rowEntries other writers row
  | [], _, _ | _ :: _, [], _ => rfl
  | writer :: writers, cell :: row, h => by
    have hrest : ∀ i, ¬ LongKey writers row i := fun i ⟨w, hw, hg⟩ =>
      h i ⟨w, List.mem_cons_of_mem _ hw, hg⟩
    have hfirst : writer.givesKey → ∀ i, cell ≠ .long i := by
      rintro hg i rfl
      exact h i ⟨writer, List.mem_cons_self, hg⟩
    rw [WriterSet.rowEntries, WriterSet.rowEntries, cellEntries_congr unit other hfirst,
      rowEntries_congr unit other hrest]

/-- A row is written in one unit if it is in the other. -/
theorem verdict_rowEntries (unit other : TimeUnit) : ∀ (writers : List Writer) (row : Row),
    verdict (WriterSet.rowEntries unit writers row) =
      verdict (WriterSet.rowEntries other writers row)
  | [], _ | _ :: _, [] => rfl
  | writer :: writers, cell :: row => by
    rw [WriterSet.rowEntries, WriterSet.rowEntries]
    rcases verdict_eq_iff.1 (verdict_cellEntries unit other writer cell) with
      ⟨first, first', hu, ho⟩ | ⟨e, hu, ho⟩ <;> rw [hu, ho]
    · rcases verdict_eq_iff.1 (verdict_rowEntries unit other writers row) with
        ⟨rest, rest', hu, ho⟩ | ⟨e, hu, ho⟩ <;> rw [hu, ho] <;> rfl
    · rfl

/-- Entries that are the same in two units have the same key in both. By induction on the writers :
the entries of a cell are as many in one unit as in the other, so they are the same cell by cell. -/
theorem seconds_eq_of_rowEntries_eq : ∀ {writers : List Writer} {row : Row}
    {entries : List (Packed × Packed)}, WriterSet.rowEntries unit writers row = .ok entries →
    WriterSet.rowEntries other writers row = .ok entries →
    ∀ {writer : Writer} {cell : Cell}, (writer, cell) ∈ writers.zip row → writer.givesKey →
      unit.seconds writer.binding.column cell = other.seconds writer.binding.column cell
  | [], _, _, _, _, _, _, hp, _ | _ :: _, [], _, _, _, _, _, hp, _ => by simp at hp
  | w :: writers, c :: row, entries, hu, ho, writer, cell, hp, hg => by
    rw [WriterSet.rowEntries] at hu ho
    obtain ⟨first, hfu, hu⟩ := bind_eq_ok.1 hu
    obtain ⟨rest, hru, hu⟩ := bind_eq_ok.1 hu
    obtain ⟨first', hfo, ho⟩ := bind_eq_ok.1 ho
    obtain ⟨rest', hro, ho⟩ := bind_eq_ok.1 ho
    have happend : first ++ rest = first' ++ rest' :=
      (Except.ok.inj hu).trans (Except.ok.inj ho).symm
    have hlength : first.length = first'.length :=
      (length_of_cellEntries hfu).trans (length_of_cellEntries hfo).symm
    obtain ⟨rfl, rfl⟩ := List.append_inj happend hlength
    rw [List.zip_cons_cons] at hp
    rcases List.mem_cons.1 hp with he | hp
    · cases he
      obtain ⟨s, hs, hlast⟩ := getLast?_of_cellEntries hg hfu
      obtain ⟨r, hr, hlast'⟩ := getLast?_of_cellEntries hg hfo
      have hsame : WriterSet.keyEntry s = WriterSet.keyEntry r :=
        Option.some.inj (hlast.symm.trans hlast')
      rw [hs, hr, keyEntry_injective hsame]
    · exact seconds_eq_of_rowEntries_eq hru hro hp hg

/-- A row of the right width is written as its entries, after the key of a generator. -/
theorem write_of_width (set : WriterSet) (hl : row.length = set.writers.length) :
    set.write row = (WriterSet.rowEntries set.unit set.writers row).map fun entries =>
      (.map ((set.generator.toList.map fun g => WriterSet.keyEntry g.next.1) ++ entries),
        { set with generator := set.generator.map (·.next.2) }) := by
  rw [WriterSet.write, if_neg (by simpa [WriterSet.width] using hl)]
  rcases set with ⟨writers, unit, _ | generator⟩ <;>
    cases WriterSet.rowEntries unit writers row <;> rfl

theorem write_of_not_width (set : WriterSet) (hl : row.length ≠ set.writers.length) :
    set.write row = .error (.refused (.rowWidth set.writers.length row.length)) := by
  rw [WriterSet.write, if_pos (by simpa [WriterSet.width] using hl)]
  rfl

/-- A row is refused in all units or in none, and for the same fault. -/
theorem verdict_write (set : WriterSet) (unit : TimeUnit) (row : Row) :
    verdict (set.write row) = verdict ({ set with unit }.write row) := by
  by_cases hl : row.length = set.writers.length
  · rw [write_of_width set hl, write_of_width { set with unit } hl, verdict_eq_iff]
    rcases verdict_eq_iff.1 (verdict_rowEntries set.unit unit set.writers row) with
      ⟨entries, entries', hu, ho⟩ | ⟨e, hu, ho⟩ <;> rw [hu, ho]
    · exact Or.inl ⟨_, _, rfl, rfl⟩
    · exact Or.inr ⟨e, rfl, rfl⟩
  · rw [write_of_not_width set hl, write_of_not_width { set with unit } hl]

/-- A row without a long as the key is written as the same record in all units. -/
theorem write_congr (set : WriterSet) (unit : TimeUnit) (h : ∀ i, ¬ LongKey set.writers row i) :
    (set.write row).map Prod.fst = ({ set with unit }.write row).map Prod.fst := by
  by_cases hl : row.length = set.writers.length
  · rw [write_of_width set hl, write_of_width { set with unit } hl,
      rowEntries_congr set.unit unit h]
    cases WriterSet.rowEntries unit set.writers row <;> rfl
  · rw [write_of_not_width set hl, write_of_not_width { set with unit } hl]

/-- Records that are the same in two units have the same key in both. -/
theorem seconds_eq_of_write_eq {set : WriterSet} {record : Packed}
    (hu : (set.write row).map Prod.fst = .ok record)
    (ho : ({ set with unit }.write row).map Prod.fst = .ok record)
    (hp : (writer, cell) ∈ set.writers.zip row) (hg : writer.givesKey) :
    set.unit.seconds writer.binding.column cell = unit.seconds writer.binding.column cell := by
  obtain ⟨⟨record, after⟩, hwu, rfl⟩ := map_eq_ok_iff.1 hu
  obtain ⟨⟨record', after'⟩, hwo, he⟩ := map_eq_ok_iff.1 ho
  obtain ⟨-, ⟨entries, heu, rfl⟩, -⟩ := write_eq_ok hwu
  obtain ⟨-, ⟨entries', heo, rfl⟩, -⟩ := write_eq_ok hwo
  obtain rfl := List.append_cancel_left (Packed.map.inj he)
  exact seconds_eq_of_rowEntries_eq heu heo hp hg

/-! ## Resolving -/

section Resolving

variable {schema : Schema} {settings : Settings} {set : WriterSet}

theorem unit_of_resolve (h : WriterSet.resolve schema settings = .ok set) :
    set.unit = settings.unit := by
  obtain ⟨_, _, _, _, -, -, -, -, rfl⟩ := resolve_eq_ok_iff.1 h
  rfl

/-- The columns are bound without a look at the unit. -/
theorem bindColumns_withUnit (unit : TimeUnit) {standard : Formatter} {timeColumn : Option String} :
    ∀ (columns : List Column) (used : List String) (index : Nat),
      bindColumns { settings with unit } standard timeColumn used index columns =
        bindColumns settings standard timeColumn used index columns
  | [], _, _ => rfl
  | column :: rest, used, index => by
    have hcolumn : bindColumn { settings with unit } standard timeColumn used index column =
        bindColumn settings standard timeColumn used index column := rfl
    rw [bindColumns, bindColumns, hcolumn]
    simp only [bindColumns_withUnit unit rest]

/-- The settings of another unit give the same writers with that unit. -/
theorem resolve_withUnit (h : WriterSet.resolve schema settings = .ok set) (unit : TimeUnit) :
    WriterSet.resolve schema { settings with unit } = .ok { set with unit } := by
  obtain ⟨generator, standard, writers, ensured, hg, hd, hw, he, rfl⟩ := resolve_eq_ok_iff.1 h
  rw [← bindColumns_withUnit unit] at hw
  exact resolve_eq_ok_iff.2 ⟨generator, standard, writers, ensured, hg, hd, hw, he, rfl⟩

end Resolving

/-! ## Sequences of rows -/

/-- Each row of a sequence is written in both units with the same generator. -/
theorem side_by_side (unit : TimeUnit) : ∀ (rows : List Row) (set : WriterSet) {i : Nat}
    {row : Row}, rows[i]? = some row → ∃ generator : Option TimeGenerator,
      generator.isSome = set.generator.isSome ∧
      (set.writeAll rows)[i]? = some (({ set with generator }.write row).map Prod.fst) ∧
      ({ set with unit }.writeAll rows)[i]? =
        some (({ set with unit, generator }.write row).map Prod.fst)
  | [], _, _, _, h => by simp at h
  | first :: rest, set, i, row, h => by
    rcases verdict_eq_iff.1 (verdict_write set unit first) with
      ⟨⟨record, after⟩, ⟨record', after'⟩, hu, ho⟩ | ⟨e, hu, ho⟩
    · rw [writeAll_of_ok hu, writeAll_of_ok ho]
      cases i with
      | zero =>
        obtain rfl : first = row := by simpa using h
        exact ⟨set.generator, rfl, by simp [hu, Except.map], by simp [ho, Except.map]⟩
      | succ i =>
        obtain ⟨-, -, rfl⟩ := write_eq_ok hu
        obtain ⟨-, -, rfl⟩ := write_eq_ok ho
        rw [List.getElem?_cons_succ] at h
        obtain ⟨generator, hg, hu, ho⟩ :=
          side_by_side unit rest { set with generator := set.generator.map (·.next.2) } h
        exact ⟨generator, by rw [hg, Option.isSome_map], hu, ho⟩
    · rw [writeAll_of_error hu, writeAll_of_error ho]
      cases i with
      | zero =>
        obtain rfl : first = row := by simpa using h
        exact ⟨set.generator, rfl, by simp [hu, Except.map], by simp [ho, Except.map]⟩
      | succ i => exact side_by_side unit rest set h

end BulkLoad.Record
