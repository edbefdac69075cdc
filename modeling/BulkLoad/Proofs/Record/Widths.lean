import BulkLoad.Proofs.Record.Conversion
import BulkLoad.Proofs.Record.Units

/-!
# Rows of the wrong width

A row is refused for its width just if it has more or fewer cells than there are columns ; no cell
is, whatever it holds. Writing a row does not change the number of columns, so the same is true of
each row of a sequence (`aboutWidth_writeAll_iff`).
-/

namespace BulkLoad.Record

/-- A row was refused for the number of its cells. -/
def Failure.AboutWidth (failure : Failure) : Prop :=
  ∃ expected actual, failure = .refused (.rowWidth expected actual)

section Cells

variable {column : String} {unit : TimeUnit} {writer : Writer} {cell : Cell} {failure : Failure}

theorem not_aboutWidth_of_seconds {e : EncodeError} (h : unit.seconds column cell = .error e) :
    ¬ Failure.AboutWidth (.refused e) := by
  rintro ⟨expected, actual, hw⟩
  obtain rfl := Failure.refused.inj hw
  cases cell <;> cases h

theorem not_aboutWidth_of_coerce {target : Target} {formatter : Formatter}
    (h : coerce column cell target formatter = .error failure) : ¬ failure.AboutWidth := by
  rintro ⟨expected, actual, rfl⟩
  unfold coerce at h
  dsimp only at h
  split at h <;> first | cases h | (split at h <;> cases h)

theorem not_aboutWidth_of_cellEntries
    (h : WriterSet.cellEntries unit writer cell = .error failure) : ¬ failure.AboutWidth := by
  unfold WriterSet.cellEntries at h
  dsimp only at h
  cases hr : writer.binding.role with
  | key =>
    simp only [hr, bind_eq_error] at h
    rcases h with hs | ⟨s, -, ⟨⟩⟩
    obtain ⟨e, rfl, he⟩ := key_eq_error_iff.1 hs
    exact not_aboutWidth_of_seconds he
  | plain =>
    simp only [hr, bind_eq_error] at h
    rcases h with hv | ⟨value, -, ⟨⟩⟩
    exact not_aboutWidth_of_coerce hv
  | keyAndPlain =>
    simp only [hr, bind_eq_error] at h
    rcases h with hs | ⟨s, -, hv | ⟨value, -, ⟨⟩⟩⟩
    · obtain ⟨e, rfl, he⟩ := key_eq_error_iff.1 hs
      exact not_aboutWidth_of_seconds he
    · exact not_aboutWidth_of_coerce hv

theorem not_aboutWidth_of_rowEntries : ∀ {writers : List Writer} {row : Row},
    WriterSet.rowEntries unit writers row = .error failure → ¬ failure.AboutWidth
  | [], _, h | _ :: _, [], h => by simp [WriterSet.rowEntries] at h
  | writer :: writers, cell :: row, h => by
    rw [WriterSet.rowEntries] at h
    rcases bind_eq_error.1 h with hf | ⟨first, -, h⟩
    · exact not_aboutWidth_of_cellEntries hf
    · rcases bind_eq_error.1 h with hr | ⟨rest, -, ⟨⟩⟩
      exact not_aboutWidth_of_rowEntries hr

end Cells

section Rows

variable {set : WriterSet} {row : Row}

theorem aboutWidth_write_iff :
    (∃ failure, set.write row = .error failure ∧ failure.AboutWidth) ↔
      row.length ≠ set.writers.length := by
  constructor
  · rintro ⟨failure, hw, ha⟩ hl
    rw [write_of_width set hl] at hw
    cases he : WriterSet.rowEntries set.unit set.writers row with
    | ok entries => simp [he, Except.map] at hw
    | error e =>
      obtain rfl : e = failure := by simpa [he, Except.map] using hw
      exact not_aboutWidth_of_rowEntries he ha
  · intro hl
    exact ⟨_, write_of_not_width set hl, _, _, rfl⟩

/-- In a sequence, the rows that have another number of cells than there are columns are refused for
it, and no others. -/
theorem aboutWidth_writeAll_iff : ∀ {rows : List Row} {set : WriterSet} {i : Nat},
    (∃ failure, (set.writeAll rows)[i]? = some (.error failure) ∧ failure.AboutWidth) ↔
      ∃ row, rows[i]? = some row ∧ row.length ≠ set.writers.length
  | [], set, i => by simp [WriterSet.writeAll]
  | row :: rest, set, i => by
    have hfirst := @aboutWidth_write_iff set row
    cases hw : set.write row with
    | error e =>
      rw [writeAll_of_error hw]
      cases i with
      | zero => simpa [hw] using hfirst
      | succ i =>
        simp only [List.getElem?_cons_succ]
        exact aboutWidth_writeAll_iff
    | ok written =>
      obtain ⟨record, after⟩ := written
      rw [writeAll_of_ok hw]
      cases i with
      | zero => simpa [hw] using hfirst
      | succ i =>
        obtain ⟨-, -, rfl⟩ := write_eq_ok hw
        simp only [List.getElem?_cons_succ]
        exact aboutWidth_writeAll_iff

/-- There is a writer for each column. -/
theorem length_of_resolve {schema : Schema} {settings : Settings}
    (h : WriterSet.resolve schema settings = .ok set) : set.writers.length = schema.width := by
  rw [Schema.width, ← asColumn_of_resolve h, List.length_map]

end Rows

end BulkLoad.Record
