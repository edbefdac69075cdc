import BulkLoad.Rows.JsonLines

/-!
# The objects that lines of input hold

A line gives a row just if it is an object, whatever the columns are (`readLine_eq_row_iff`). So the
rows of an input are those of its objects, in their order; blank lines and lines with a fault leave
no trace among them (`readRows_eq`).
-/

namespace BulkLoad

/-- The fields of the object that a line is, if it is one. -/
def objectOf? (line : List UInt8) : Option (List (String × Json)) :=
  match (Text.Utf8.decode? line).bind fun s => Json.parse? (Text.trim s) with
  | some (.object fields) => some fields
  | _ => none

/-- The objects among the lines of an input. -/
def objectsOf (bytes : List UInt8) : List (List (String × Json)) :=
  (linesOf bytes).filterMap objectOf?

/-- The rows that an input gives, without its faults. -/
def readRows (schema : Schema) (words : String → String) (bytes : List UInt8) : List Row :=
  (JsonLines.ofBytes schema words bytes).rows.filterMap Except.toOption

/-- Nothing is no document. -/
theorem parse?_empty : Json.parse? "" = none := by
  rfl

theorem readLine_eq_row_iff {schema : Schema} {words : String → String} {line : List UInt8}
    {cells : Row} : schema.readLine words line = .row cells ↔
      ∃ fields, objectOf? line = some fields ∧ cells = schema.rowOf fields := by
  unfold Schema.readLine objectOf?
  cases Text.Utf8.decode? line with
  | none => simp
  | some s =>
    simp only [Option.bind_some]
    by_cases he : (Text.trim s).isEmpty
    · have hs : Text.trim s = "" := by simpa using he
      simp [hs, parse?_empty]
    · rw [if_neg he]
      cases Json.parse? (Text.trim s) with
      | none => simp
      | some document => cases document <;> simp [eq_comm]

theorem rowsFrom_eq {schema : Schema} {words : String → String} :
    ∀ {lines : List (List UInt8)} {count : Nat},
    (JsonLines.rowsFrom schema words count lines).filterMap Except.toOption =
      (lines.filterMap objectOf?).map schema.rowOf
  | [], _ => rfl
  | line :: rest, count => by
    have hrow := @readLine_eq_row_iff schema words line
    rw [JsonLines.rowsFrom]
    cases ho : objectOf? line with
    | some fields =>
      rw [hrow.2 ⟨fields, ho, rfl⟩, List.filterMap_cons_some ho, List.map_cons, ← rowsFrom_eq]
      rfl
    | none =>
      have hnone : ∀ cells, schema.readLine words line ≠ .row cells := by simp [hrow, ho]
      rw [List.filterMap_cons_none ho]
      cases hl : schema.readLine words line with
      | blank => exact rowsFrom_eq
      | row cells => exact absurd hl (hnone cells)
      | fault e => cases e <;> exact rowsFrom_eq

/-- The rows of an input are those of its objects. -/
theorem readRows_eq (schema : Schema) (words : String → String) (bytes : List UInt8) :
    readRows schema words bytes = (objectsOf bytes).map schema.rowOf :=
  rowsFrom_eq

end BulkLoad
