import BulkLoad.Proofs.Record.Entries
import BulkLoad.Proofs.Record.Sources

/-!
# Rows that are refused in a sequence

A row that is refused leaves the writers as they are. So the rows that are written get the records
that they would get without the others, and a generator moves on by one key with each record and not
otherwise : the keys of a range follow one another and start over after the last (`Counts`).
`written_without_refused` says both of any sequence of rows.
-/

namespace BulkLoad.Record

/-- The rows of a sequence that are written. -/
def WriterSet.accepted (set : WriterSet) (rows : List Row) : List Row :=
  ((rows.zip (set.writeAll rows)).filter fun p => p.2.isOk).map Prod.fst

section Accepted

variable {set after : WriterSet} {row : Row} {rest : List Row} {record : Packed} {e : Failure}

theorem writeAll_of_ok (h : set.write row = .ok (record, after)) :
    set.writeAll (row :: rest) = .ok record :: after.writeAll rest := by
  rw [WriterSet.writeAll, h]

theorem writeAll_of_error (h : set.write row = .error e) :
    set.writeAll (row :: rest) = .error e :: set.writeAll rest := by
  rw [WriterSet.writeAll, h]

theorem accepted_of_ok (h : set.write row = .ok (record, after)) :
    set.accepted (row :: rest) = row :: after.accepted rest := by
  rw [WriterSet.accepted, writeAll_of_ok h]
  rfl

theorem accepted_of_error (h : set.write row = .error e) :
    set.accepted (row :: rest) = set.accepted rest := by
  rw [WriterSet.accepted, writeAll_of_error h]
  rfl

/-- Without the rows that are refused, each row gets the record that it gets among them. -/
theorem writeAll_accepted : ∀ (set : WriterSet) (rows : List Row),
    set.writeAll (set.accepted rows) = (set.writeAll rows).filter Except.isOk
  | _, [] => rfl
  | set, row :: rest => by
    cases hw : set.write row with
    | error e =>
      rw [accepted_of_error hw, writeAll_of_error hw, writeAll_accepted set rest]
      rfl
    | ok written =>
      obtain ⟨record, after⟩ := written
      rw [accepted_of_ok hw, writeAll_of_ok hw, writeAll_of_ok hw, writeAll_accepted after rest]
      rfl

/-- A row is written if it has the right width and its cells can be written. -/
theorem isOk_write (set : WriterSet) (row : Row) : (set.write row).isOk =
    (decide (row.length = set.writers.length) &&
      (WriterSet.rowEntries set.unit set.writers row).isOk) := by
  unfold WriterSet.write
  by_cases hl : row.length = set.writers.length
  · rw [if_neg (by simpa [WriterSet.width] using hl), decide_eq_true hl, Bool.true_and]
    cases WriterSet.rowEntries set.unit set.writers row with
    | error e => rfl
    | ok entries => cases set.generator <;> rfl
  · rw [if_pos (by simpa [WriterSet.width] using hl), decide_eq_false hl]
    rfl

/-- Whether a row is written does not depend on the rows that were written before. -/
theorem isOk_write_after (h : set.write row = .ok (record, after)) (other : Row) :
    (after.write other).isOk = (set.write other).isOk := by
  obtain ⟨-, -, rfl⟩ := write_eq_ok h
  rw [isOk_write, isOk_write]

theorem accepted_eq_filter : ∀ (set : WriterSet) (rows : List Row),
    set.accepted rows = rows.filter fun row => (set.write row).isOk
  | _, [] => rfl
  | set, row :: rest => by
    cases hw : set.write row with
    | error e =>
      rw [accepted_of_error hw, accepted_eq_filter set rest, List.filter_cons, hw]
      rfl
    | ok written =>
      obtain ⟨record, after⟩ := written
      rw [accepted_of_ok hw, accepted_eq_filter after rest, List.filter_cons, hw]
      simp only [isOk_write_after hw]
      rfl

end Accepted

/-! ## The keys of a range -/

/-- An integer below another one has a successor. -/
theorem toInt_add_one {i j : Int64} (h : i < j) : (i + 1).toInt = i.toInt + 1 := by
  have hlt := Int64.lt_iff_toInt_lt.1 h
  have hlow := i.le_toInt
  have hhigh := j.toInt_lt
  rw [Int64.toInt_add, Int64.toInt_one]
  exact Int.bmod_eq_of_le (by omega) (by omega)

/-- A generator that has given a number of keys of a range. The keys follow one another, and the
range starts over after the last one. -/
def Counts (low high : Int64) (given : Nat) (generator : TimeGenerator) : Prop :=
  ∃ next, generator = .cycle low high next ∧
    next.toInt = low.toInt + given % (high.toInt - low.toInt + 1)

namespace Counts

variable {low high : Int64} {given : Nat} {generator : TimeGenerator}

theorem begun (low high : Int64) : Counts low high 0 (TimeValue.incremental low high).begun :=
  ⟨low, rfl, by simp⟩

theorem toInt_next (h : Counts low high given generator) :
    generator.next.1.toInt = low.toInt + given % (high.toInt - low.toInt + 1) := by
  obtain ⟨next, rfl, hn⟩ := h
  exact hn

/-- Below the end of the range the next key is one more, which does not overflow. -/
theorem moved (hr : low ≤ high) (h : Counts low high given generator) :
    Counts low high (given + 1) generator.next.2 := by
  obtain ⟨current, rfl, hc⟩ := h
  refine ⟨_, rfl, ?_⟩
  have hle := Int64.le_iff_toInt_le.1 hr
  set size := high.toInt - low.toInt + 1
  have hmod : ((given + 1 : Nat) : Int) % size = (given % size + 1) % size := by
    rw [Int.emod_add_emod, Int.natCast_succ]
  have hbelow : given % size < size := Int.emod_lt_of_pos _ (by omega)
  have hnonneg : 0 ≤ given % size := Int.emod_nonneg _ (by omega)
  rw [hmod]
  split_ifs with h
  · have hlast : given % size + 1 = size := by
      have := Int64.le_iff_toInt_le.1 h
      omega
    rw [hlast, Int.emod_self, Int.add_zero]
  · have hlt := Int64.not_le.1 h
    have hnext : given % size + 1 < size := by
      have := Int64.lt_iff_toInt_lt.1 hlt
      omega
    rw [toInt_add_one hlt, hc, Int.emod_eq_of_lt (by omega) hnext, Int.add_assoc]

/-- Each record that is written has the next key, and a row that is refused takes none. -/
theorem key_of_written (hr : low ≤ high) : ∀ {rows : List Row} {set : WriterSet} {given : Nat}
    {generator : TimeGenerator}, set.generator = some generator →
    Counts low high given generator → ∀ {i : Nat} {record : Packed},
      ((set.writeAll rows).filter Except.isOk)[i]? = some (.ok record) →
      ∃ seconds entries, record = .map (WriterSet.keyEntry seconds :: entries) ∧
        seconds.toInt = low.toInt + (given + i : Nat) % (high.toInt - low.toInt + 1)
  | [], _, _, _, _, _, _, _, h => by simp [WriterSet.writeAll] at h
  | row :: rest, set, given, generator, hg, hc, i, record, h => by
    cases hw : set.write row with
    | error e =>
      rw [writeAll_of_error hw, List.filter_cons_of_neg Bool.false_ne_true] at h
      exact key_of_written hr hg hc h
    | ok written =>
      obtain ⟨first, after⟩ := written
      obtain ⟨-, ⟨entries, -, rfl⟩, rfl⟩ := write_eq_ok hw
      rw [writeAll_of_ok hw, List.filter_cons_of_pos rfl] at h
      cases i with
      | zero =>
        obtain rfl : _ = record := by simpa using h
        exact ⟨generator.next.1, entries, by simp [hg], hc.toInt_next⟩
      | succ i =>
        have hafter : set.generator.map (·.next.2) = some generator.next.2 := by rw [hg]; rfl
        rw [List.getElem?_cons_succ] at h
        obtain ⟨seconds, entries, hrecord, hs⟩ := key_of_written hr hafter (hc.moved hr) h
        exact ⟨seconds, entries, hrecord, by rw [hs, Nat.add_right_comm, Nat.add_assoc]⟩

end Counts

/-- A generator of a range is at its beginning when the columns of a schema are resolved. -/
theorem generator_of_resolve {schema : Schema} {settings : Settings} {set : WriterSet}
    (h : WriterSet.resolve schema settings = .ok set) {low high : Int64}
    (hv : settings.timeValue = some (.incremental low high)) :
    low ≤ high ∧ set.generator = some (TimeValue.incremental low high).begun := by
  obtain ⟨generator, standard, writers, ensured, hg, -, -, -, rfl⟩ := resolve_eq_ok_iff.1 h
  obtain ⟨-, -, hrange, -, rfl⟩ := checkSettings_eq_ok_iff.1 hg
  exact ⟨hrange low high hv, by rw [hv]; rfl⟩

/-- Whichever rows of a sequence are refused, the others are written as they would be without them,
and they are those that would be written if they came first. If the settings ask for the keys of a
range, the records have these in turn, counted without regard to the rows that are refused. -/
theorem written_without_refused (set : WriterSet) (rows : List Row) :
    set.writeAll (set.accepted rows) = (set.writeAll rows).filter Except.isOk ∧
      set.accepted rows = rows.filter (fun row => (set.write row).isOk) ∧
      ∀ (schema : Schema) (settings : Settings) (low high : Int64),
        WriterSet.resolve schema settings = .ok set →
        settings.timeValue = some (.incremental low high) →
        ∀ (i : Nat) (record : Packed),
          ((set.writeAll rows).filter Except.isOk)[i]? = some (.ok record) →
          ∃ seconds entries, record = .map (WriterSet.keyEntry seconds :: entries) ∧
            seconds.toInt = low.toInt + i % (high.toInt - low.toInt + 1) := by
  refine ⟨writeAll_accepted set rows, accepted_eq_filter set rows, ?_⟩
  intro schema settings low high h hv i record hi
  obtain ⟨hr, hg⟩ := generator_of_resolve h hv
  obtain ⟨seconds, entries, hrecord, hs⟩ := Counts.key_of_written hr hg (.begun low high) hi
  exact ⟨seconds, entries, hrecord, by rw [hs, Nat.zero_add]⟩

/-! ## A range at the end of the integers -/

/-- The last two keys that there are, in turn. -/
def lastKeys : Settings :=
  { timeValue := some (.incremental 0x7FFFFFFFFFFFFFFE 0x7FFFFFFFFFFFFFFF) }

/-- The writers of one column with these keys. -/
def lastKeysSet : WriterSet :=
  ⟨[⟨⟨0, "n", "n", .plain, .long, .long⟩, .standard⟩], .second,
    some (.cycle 0x7FFFFFFFFFFFFFFE 0x7FFFFFFFFFFFFFFF 0x7FFFFFFFFFFFFFFE)⟩

/-- Rows of which the first and the third are refused. -/
def mixedRows : List Row :=
  [[.string "x"], [.long 1], [], [.long 2], [.long 3]]

/-- The range starts over with the third record. -/
theorem written_mixed :
    WriterSet.resolve ⟨[⟨"n", .long⟩]⟩ lastKeys = .ok lastKeysSet ∧
      ((lastKeysSet.writeAll mixedRows).filter Except.isOk)[2]? =
        some (.ok (recordOf [("time", .ofInt64 0x7FFFFFFFFFFFFFFE), ("n", .ofInt64 3)])) ∧
      lastKeysSet.writeAll [[.long 1], [.long 2], [.long 3]] =
        (lastKeysSet.writeAll mixedRows).filter Except.isOk ∧
      ∃ seconds entries, recordOf [("time", .ofInt64 0x7FFFFFFFFFFFFFFE), ("n", .ofInt64 3)] =
        .map (WriterSet.keyEntry seconds :: entries) ∧
        seconds.toInt = Int64.toInt 0x7FFFFFFFFFFFFFFE +
          (2 : Nat) % (Int64.toInt 0x7FFFFFFFFFFFFFFF - Int64.toInt 0x7FFFFFFFFFFFFFFE + 1) := by
  have hresolve : WriterSet.resolve ⟨[⟨"n", .long⟩]⟩ lastKeys = .ok lastKeysSet := by
    decide +kernel
  have hthird : ((lastKeysSet.writeAll mixedRows).filter Except.isOk)[2]? =
      some (.ok (recordOf [("time", .ofInt64 0x7FFFFFFFFFFFFFFE), ("n", .ofInt64 3)])) := rfl
  obtain ⟨hsame, -, hkeys⟩ := written_without_refused lastKeysSet mixedRows
  exact ⟨hresolve, hthird, hsame, hkeys _ _ _ _ hresolve rfl 2 _ hthird⟩

end BulkLoad.Record
