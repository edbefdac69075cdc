import BulkLoad.Proofs.Record.Widths
import BulkLoad.Proofs.Text.Blanks
import BulkLoad.Proofs.Text.Encodings
import BulkLoad.Rows.JsonLines

/-!
# The rows that are read from the lines of a text

The calls for the next row give one result for each line that is not blank, in the order of the
lines, and nothing from then on (`reading_of_text`). A result is a row if the line is an object and
a fault else, and it depends on its own line alone. So a blank line, a fault or a last line without
an end shifts nothing : the `k`-th result is that of the `k`-th of these lines. The byte that ends a
line occurs in no character but the line feed, so that the lines of the bytes are those of the text
(`splitOn_encode`).
-/

namespace BulkLoad

open Text (isBlank Blanks)

/-! ## Lines of bytes -/

section Splitting

variable {α : Type} [BEq α] [LawfulBEq α] {sep : α}

/-- What comes before the first separator belongs to the first piece. -/
theorem splitOn_append_of_not_mem {rest : List α} : ∀ {first : List α}, sep ∉ first →
    (first ++ rest).splitOn sep = (rest.splitOn sep).modifyHead (first ++ ·)
  | [], _ => by
    change rest.splitOn sep = (rest.splitOn sep).modifyHead id
    rw [List.modifyHead_id, id]
  | a :: first, h => by
    have ha : (a == sep) = false := beq_false_of_ne (List.ne_of_not_mem_cons h).symm
    have hfirst : sep ∉ first := List.not_mem_of_not_mem_cons h
    rw [List.cons_append, List.splitOn_cons_eq_if_modifyHead, ha, if_neg Bool.false_ne_true,
      splitOn_append_of_not_mem hfirst, List.modifyHead_modifyHead]
    rfl

end Splitting

theorem exists_splitOnPPrepend_eq : ∀ (bytes line : List UInt8) (before : List (List UInt8)),
    ∃ rest, (rest = [] ∨ rest = [[]]) ∧
      before.reverse ++ bytes.splitOnPPrepend (· == lineEnd) line =
        linesFrom line before bytes ++ rest
  | [], line, before => by
    rw [List.splitOnPPrepend_nil, linesFrom]
    cases line with
    | nil => exact ⟨[[]], Or.inr rfl, rfl⟩
    | cons byte line => exact ⟨[], Or.inl rfl, by simp⟩
  | byte :: bytes, line, before => by
    rw [List.splitOnPPrepend_cons_eq_if, linesFrom]
    by_cases hend : byte = lineEnd
    · obtain ⟨rest, hrest, heq⟩ := exists_splitOnPPrepend_eq bytes [] (line.reverse :: before)
      refine ⟨rest, hrest, ?_⟩
      rw [if_pos (beq_iff_eq.2 hend), if_pos hend, ← heq, List.splitOnP_eq_splitOnPPrepend]
      simp
    · rw [if_neg (by simpa using hend), if_neg hend]
      exact exists_splitOnPPrepend_eq bytes (byte :: line) before

/-- Between the line ends are the lines, and nothing after the last of them if it has an end. -/
theorem exists_splitOn_eq (bytes : List UInt8) :
    ∃ rest, (rest = [] ∨ rest = [[]]) ∧ bytes.splitOn lineEnd = linesOf bytes ++ rest := by
  obtain ⟨rest, hrest, heq⟩ := exists_splitOnPPrepend_eq bytes [] []
  refine ⟨rest, hrest, ?_⟩
  rw [List.splitOn_eq_splitOnP, List.splitOnP_eq_splitOnPPrepend]
  exact heq

/-! ## Lines of text -/

/-- The bytes of characters. -/
def bytesOf (cs : List Char) : List UInt8 :=
  Text.Utf8.encode (String.ofList cs)

theorem bytesOf_cons (c : Char) (cs : List Char) :
    bytesOf (c :: cs) = String.utf8EncodeChar c ++ bytesOf cs := by
  simp [bytesOf, Text.Utf8.encode]

theorem decode?_bytesOf (cs : List Char) :
    Text.Utf8.decode? (bytesOf cs) = some (String.ofList cs) :=
  Text.Utf8.decode?_encode (String.ofList cs)

theorem utf8EncodeChar_newline : String.utf8EncodeChar '\n' = [lineEnd] := by
  decide

/-- The byte that ends a line is part of no other character. -/
theorem eq_newline_of_lineEnd_mem {c : Char} (h : lineEnd ∈ String.utf8EncodeChar c) :
    c = '\n' := by
  have hc := c.toNat_val
  unfold String.utf8EncodeChar at h
  dsimp only at h
  split_ifs at h with hone
  · simp only [List.mem_singleton, lineEnd, ← UInt8.toNat_inj, UInt8.toNat_ofNat',
      UInt8.reduceToNat] at h
    have hnewline : c.toNat = '\n'.toNat := by
      rw [← hc]
      change _ = 10
      omega
    exact Char.toNat_inj.1 hnewline
  -- The other forms have bytes from 128 on only.
  all_goals
    simp only [List.mem_cons, List.not_mem_nil, or_false, lineEnd, ← UInt8.toNat_inj,
      UInt8.toNat_ofNat', UInt8.reduceToNat] at h
    omega

theorem splitOn_bytesOf : ∀ cs : List Char,
    (bytesOf cs).splitOn lineEnd = (cs.splitOn '\n').map bytesOf
  | [] => rfl
  | c :: cs => by
    have ih := splitOn_bytesOf cs
    rw [bytesOf_cons, List.splitOn_cons_eq_if_modifyHead]
    by_cases hc : c = '\n'
    · subst hc
      rw [utf8EncodeChar_newline, if_pos (beq_self_eq_true _), List.map_cons, ← ih,
        List.singleton_append, List.splitOn_cons_eq_if_modifyHead, if_pos (beq_self_eq_true _)]
      rfl
    · rw [if_neg (by simpa using hc),
        splitOn_append_of_not_mem fun h => hc (eq_newline_of_lineEnd_mem h), ih]
      cases cs.splitOn '\n' with
      | nil => rfl
      | cons line lines => simp [bytesOf_cons]

/-- The lines of the bytes of a text are the bytes of its lines. -/
theorem splitOn_encode (text : String) :
    (Text.Utf8.encode text).splitOn lineEnd = (text.toList.splitOn '\n').map bytesOf := by
  rw [← splitOn_bytesOf, bytesOf, String.ofList_toList]

/-! ## Results -/

/-- The lines of a text that are not blank, with their numbers. What follows a line feed at the end
of the text is blank. -/
def contentLines (text : String) : List (List Char × Nat) :=
  ((text.toList.splitOn '\n').zipIdx 1).filter fun line => !line.1.all isBlank

/-- What a line of a number gives. -/
def Schema.resultOf (schema : Schema) (words : String → String) (line : List Char × Nat) :
    Except RowFault Row :=
  match Json.parse? (Text.trim (String.ofList line.1)) with
  | some (.object fields) => .ok (schema.rowOf fields)
  | some _ => .error ⟨line.2, .notAnObject⟩
  | none => .error ⟨line.2, .notJson (words (Text.trim (String.ofList line.1)))⟩

section Results

variable {schema : Schema} {words : String → String} {count : Nat} {cs : List Char}
  {rest : List (List UInt8)}

theorem isEmpty_trim_iff : (Text.trim (String.ofList cs)).isEmpty ↔ Blanks cs := by
  rw [String.isEmpty_iff, Text.trim, String.toList_ofList, ← Text.trimChars_eq_nil_iff,
    ← String.toList_eq_nil_iff, String.toList_ofList]

theorem rowsFrom_of_blanks (h : Blanks cs) :
    JsonLines.rowsFrom schema words count (bytesOf cs :: rest) =
      JsonLines.rowsFrom schema words (count + 1) rest := by
  rw [JsonLines.rowsFrom, Schema.readLine, decode?_bytesOf]
  dsimp only
  rw [if_pos (isEmpty_trim_iff.2 h)]

theorem rowsFrom_of_not_blanks (h : ¬ Blanks cs) :
    JsonLines.rowsFrom schema words count (bytesOf cs :: rest) =
      schema.resultOf words (cs, count + 1) ::
        JsonLines.rowsFrom schema words (count + 1) rest := by
  rw [JsonLines.rowsFrom, Schema.readLine, decode?_bytesOf, Schema.resultOf]
  dsimp only
  rw [if_neg (mt isEmpty_trim_iff.1 h)]
  cases Json.parse? (Text.trim (String.ofList cs)) with
  | none => rfl
  | some document => cases document <;> rfl

/-- Each line that is not blank has its result, whatever the other ones are. -/
theorem rowsFrom_map_bytesOf : ∀ (lines : List (List Char)) (count : Nat),
    JsonLines.rowsFrom schema words count (lines.map bytesOf) =
      ((lines.zipIdx (count + 1)).filter fun line => !line.1.all isBlank).map
        (schema.resultOf words)
  | [], _ => rfl
  | cs :: lines, count => by
    rw [List.map_cons, List.zipIdx_cons]
    by_cases hb : Blanks cs
    · have hall : cs.all isBlank = true := List.all_eq_true.2 hb
      rw [rowsFrom_of_blanks hb, List.filter_cons_of_neg (by simp [hall]), rowsFrom_map_bytesOf]
    · have hall : ¬ cs.all isBlank = true := mt List.all_eq_true.1 hb
      rw [rowsFrom_of_not_blanks hb, List.filter_cons_of_pos (by simpa using hall), List.map_cons,
        rowsFrom_map_bytesOf]

/-- An empty line at the end gives nothing. -/
theorem rowsFrom_append_nil : ∀ (lines : List (List UInt8)) (count : Nat),
    JsonLines.rowsFrom schema words count (lines ++ [[]]) =
      JsonLines.rowsFrom schema words count lines
  | [], count => by
    have hblank : Blanks [] := by simp [Blanks]
    exact rowsFrom_of_blanks hblank
  | line :: lines, count => by
    rw [List.cons_append, JsonLines.rowsFrom, JsonLines.rowsFrom]
    simp only [rowsFrom_append_nil lines]

/-- The results of a text are those of its lines that are not blank. -/
theorem rows_ofBytes (schema : Schema) (words : String → String) (text : String) :
    (JsonLines.ofBytes schema words (Text.Utf8.encode text)).rows =
      (contentLines text).map (schema.resultOf words) := by
  obtain ⟨after, hafter, heq⟩ := exists_splitOn_eq (Text.Utf8.encode text)
  have hrows : JsonLines.rowsFrom schema words 0 (linesOf (Text.Utf8.encode text)) =
      JsonLines.rowsFrom schema words 0 ((Text.Utf8.encode text).splitOn lineEnd) := by
    rcases hafter with rfl | rfl
    · rw [heq, List.append_nil]
    · rw [heq, rowsFrom_append_nil]
  rw [JsonLines.rows, JsonLines.ofBytes]
  dsimp only
  rw [hrows, splitOn_encode, rowsFrom_map_bytesOf]
  rfl

end Results

/-- A carriage return and a blank line end no line of their own, and the last line has no end. -/
example : (JsonLines.ofBytes ⟨[⟨"n", .long⟩]⟩ ("in " ++ ·)
    (Text.Utf8.encode "\x7b\"n\":1\x7d\r\n\n \t\n[1]\n[2 \n\x7b\x7d")).rows =
      [.ok [.long 1], .error ⟨4, .notAnObject⟩, .error ⟨5, .notJson "in [2"⟩, .ok [.null]] := by
  rw [rows_ofBytes]
  cbv

/-! ## Calls -/

namespace JsonLines

/-- A call gives the first of the results that are left, and leaves the others. -/
theorem nextFrom_eq (schema : Schema) (words : String → String) :
    ∀ (lines : List (List UInt8)) (count : Nat),
    (nextFrom schema words count lines).1 = (rowsFrom schema words count lines).head? ∧
      (nextFrom schema words count lines).2.rows = (rowsFrom schema words count lines).tail
  | [], _ => ⟨rfl, rfl⟩
  | line :: lines, count => by
    rw [nextFrom, rowsFrom]
    cases schema.readLine words line with
    | blank => exact nextFrom_eq schema words lines (count + 1)
    | row cells => exact ⟨rfl, rfl⟩
    | fault e => cases e <;> exact ⟨rfl, rfl⟩

/-- The calls give the results that are left one after the other, and then nothing. -/
theorem map_fst_nextOnes : ∀ (calls : Nat) (input : JsonLines),
    (input.nextOnes calls).map Prod.fst = (List.range calls).map (input.rows[·]?)
  | 0, _ => rfl
  | calls + 1, input => by
    obtain ⟨hnext, hafter⟩ := nextFrom_eq input.schema input.words input.lines input.count
    have htail : input.next.2.rows = input.rows.tail := hafter
    rw [nextOnes, List.map_cons, map_fst_nextOnes calls, htail, List.range_succ_eq_map,
      List.map_cons, List.map_map]
    refine congrArg₂ List.cons ?_ ?_
    · rw [next, hnext, List.head?_eq_getElem?]
      rfl
    · simp

/-- A call reads some of the lines that are left : at least one if it gives a result, and all if it
gives none. -/
theorem nextFrom_lines (schema : Schema) (words : String → String) :
    ∀ (lines : List (List UInt8)) (count : Nat),
    (nextFrom schema words count lines).2.lines <:+ lines ∧
      ((nextFrom schema words count lines).1.isSome →
        (nextFrom schema words count lines).2.lines.length < lines.length) ∧
      ((nextFrom schema words count lines).1 = none →
        (nextFrom schema words count lines).2.lines = [])
  | [], _ => ⟨List.suffix_rfl, by simp [nextFrom], fun _ => rfl⟩
  | line :: lines, count => by
    have hfirst : lines <:+ line :: lines := List.suffix_cons line lines
    rw [nextFrom]
    cases schema.readLine words line with
    | blank =>
      obtain ⟨hsuffix, hsome, hnone⟩ := nextFrom_lines schema words lines (count + 1)
      refine ⟨hsuffix.trans hfirst, fun h => ?_, hnone⟩
      exact (hsome h).trans (Nat.lt_succ_self lines.length)
    | row cells => exact ⟨hfirst, by simp, by simp⟩
    | fault e => cases e <;> exact ⟨hfirst, by simp, by simp⟩

end JsonLines

/-! ## Cells -/

theorem Cell.ofField_null (type : ColumnType) : Cell.ofField type .null = .null := by
  cases type <;> rfl

theorem Schema.length_rowOf (schema : Schema) (fields : List (String × Json)) :
    (schema.rowOf fields).length = schema.width := by
  rw [Schema.rowOf, List.length_map, Schema.width]

/-- The rows of a schema have a cell for each column, from the type of the column and the field of
its name alone. -/
structure Cellwise (schema : Schema) : Prop where
  width : ∀ fields, (schema.rowOf fields).length = schema.width
  absent : ∀ {fields : List (String × Json)} {i : Nat} {column : Column},
    schema.columns[i]? = some column →
    Json.field? column.name fields = none ∨ Json.field? column.name fields = some .null →
      (schema.rowOf fields)[i]? = some .null
  determined : ∀ {other : Schema} {fields fields' : List (String × Json)} {i j : Nat}
    {column column' : Column},
    schema.columns[i]? = some column → other.columns[j]? = some column' →
    column.type = column'.type →
    Json.field? column.name fields = Json.field? column'.name fields' →
      (schema.rowOf fields)[i]? = (other.rowOf fields')[j]?

theorem cellwise (schema : Schema) : Cellwise schema where
  width := schema.length_rowOf
  absent := by
    intro fields i column hi hf
    rw [Schema.rowOf, List.getElem?_map, hi, Option.map_some]
    rcases hf with hf | hf
    · rw [hf]
    · rw [hf]
      exact congrArg some (Cell.ofField_null column.type)
  determined := by
    intro other fields fields' i j column column' hi hj ht hf
    rw [Schema.rowOf, Schema.rowOf, List.getElem?_map, List.getElem?_map, hi, hj,
      Option.map_some, Option.map_some, ht, hf]

/-! ## The whole text -/

/-- What the calls for the rows of a text give, and what can be done with the rows. -/
structure Reading (schema : Schema) (words : String → String) (text : String) : Prop where
  /-- The results of the lines that are not blank, one after the other, and then nothing. -/
  results : ∀ calls,
    ((JsonLines.ofBytes schema words (Text.Utf8.encode text)).nextOnes calls).map Prod.fst =
      (List.range calls).map fun k => (contentLines text)[k]?.map (schema.resultOf words)
  /-- A call reads some of the lines that are left and ends. -/
  ends : ∀ input : JsonLines, input.next.2.lines <:+ input.lines ∧
    (input.next.1.isSome → input.next.2.lines.length < input.lines.length) ∧
    (input.next.1 = none → input.next.2.lines = [])
  cells : Cellwise schema
  /-- None of the rows is refused for its width, whatever came before it. -/
  fitting : ∀ {settings : Record.Settings} {set : Record.WriterSet} {rows : List Row},
    Record.WriterSet.resolve schema settings = .ok set →
    (∀ row ∈ rows, ∃ line ∈ contentLines text, schema.resultOf words line = .ok row) →
    ∀ failure, .error failure ∈ set.writeAll rows → ¬ failure.AboutWidth

theorem length_of_resultOf {schema : Schema} {words : String → String} {line : List Char × Nat}
    {row : Row}     (h : schema.resultOf words line = .ok row) : row.length = schema.width := by
  unfold Schema.resultOf at h
  split at h
  · obtain rfl := Except.ok.inj h
    exact schema.length_rowOf _
  all_goals cases h

/-- The rows of a text are read line by line, each line for itself. -/
theorem reading_of_text (schema : Schema) (words : String → String) (text : String) :
    Reading schema words text where
  results := by
    intro calls
    rw [JsonLines.map_fst_nextOnes, rows_ofBytes]
    simp only [List.getElem?_map]
  ends input := JsonLines.nextFrom_lines input.schema input.words input.lines input.count
  cells := cellwise schema
  fitting := by
    intro settings set rows hs hrows failure hf ha
    obtain ⟨i, hi⟩ := List.mem_iff_getElem?.1 hf
    obtain ⟨row, hrow, hwidth⟩ := Record.aboutWidth_writeAll_iff.1 ⟨failure, hi, ha⟩
    obtain ⟨line, -, hline⟩ := hrows row (List.mem_of_getElem? hrow)
    rw [Record.length_of_resolve hs] at hwidth
    exact hwidth (length_of_resultOf hline)

end BulkLoad
