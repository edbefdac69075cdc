import BulkLoad.Proofs.Rows.Lines

/-!
# The numbers of lines

A call for the next row reads some blank lines and the line that gives its result (`Read`), and
counts all of them but one that is not text. So the count after any calls is the number of the
lines of text among those that are read, and the number in a fault is one more than that of the
lines of text before its line (`numbered_of_bytes`). Both are the physical numbers just if no line
before is something else than text, which is so for all lines of a text. A line that is not text
shifts the numbers of all that follows it (`numbers_astray`).
-/

namespace BulkLoad

/-! ## Physical lines -/

/-- The lines of bytes : each but the last one is followed by a line end, and the last one is not
empty if it is not. -/
inductive PhysicalLines : List UInt8 → List (List UInt8) → Prop
  | nil : PhysicalLines [] []
  | last {line : List UInt8} (hne : line ≠ []) (h : lineEnd ∉ line) : PhysicalLines line [line]
  | cons {line rest : List UInt8} {lines : List (List UInt8)} (h : lineEnd ∉ line)
    (hrest : PhysicalLines rest lines) : PhysicalLines (line ++ lineEnd :: rest) (line :: lines)

/-- The reader's lines, where it has read a part of the first one and some lines before it. -/
theorem exists_linesFrom_eq : ∀ (bytes line : List UInt8) (before : List (List UInt8)),
    lineEnd ∉ line → ∃ lines, linesFrom line before bytes = before.reverse ++ lines ∧
      PhysicalLines (line.reverse ++ bytes) lines
  | [], line, before, hline => by
    rw [linesFrom, List.append_nil]
    by_cases hempty : line = []
    · subst hempty
      exact ⟨[], by simp, .nil⟩
    · exact ⟨[line.reverse], by simp [hempty],
        .last (by simpa using hempty) (by simpa using hline)⟩
  | byte :: bytes, line, before, hline => by
    rw [linesFrom]
    by_cases hend : byte = lineEnd
    · obtain ⟨lines, heq, hlines⟩ :=
        exists_linesFrom_eq bytes [] (line.reverse :: before) List.not_mem_nil
      refine ⟨line.reverse :: lines, by simp [if_pos hend, heq], ?_⟩
      rw [hend]
      exact .cons (by simpa using hline) hlines
    · obtain ⟨lines, heq, hlines⟩ := exists_linesFrom_eq bytes (byte :: line) before
        (by simpa [hline] using Ne.symm hend)
      exact ⟨lines, by rw [if_neg hend, heq], by simpa using hlines⟩

theorem physicalLines_linesOf (bytes : List UInt8) : PhysicalLines bytes (linesOf bytes) := by
  obtain ⟨lines, heq, hlines⟩ := exists_linesFrom_eq bytes [] [] List.not_mem_nil
  rw [linesOf, heq]
  exact hlines

/-! ## Lines of text -/

/-- The bytes of a line are those of a text. -/
def isText (line : List UInt8) : Bool :=
  (Text.Utf8.decode? line).isSome

/-- The number of lines of text among lines. -/
def countTexts (lines : List (List UInt8)) : Nat :=
  lines.countP isText

section Texts

variable {lines : List (List UInt8)}

theorem countTexts_append (before after : List (List UInt8)) :
    countTexts (before ++ after) = countTexts before + countTexts after :=
  List.countP_append

theorem countTexts_eq_length_iff : countTexts lines = lines.length ↔ ∀ line ∈ lines, isText line :=
  List.countP_eq_length

/-- A line that is not text gives the fault that says so, and no other line does. -/
theorem isText_iff_readLine (schema : Schema) (words : String → String) (line : List UInt8) :
    isText line ↔ schema.readLine words line ≠ .fault .notText := by
  unfold isText Schema.readLine
  cases Text.Utf8.decode? line with
  | none => simp
  | some s =>
    simp only [Option.isSome_some, true_iff]
    split
    · exact LineResult.noConfusion
    · split <;> simp

/-- All lines of a text are texts. -/
theorem isText_of_mem_linesOf (text : String) :
    ∀ line ∈ linesOf (Text.Utf8.encode text), isText line := by
  intro line hline
  obtain ⟨after, -, heq⟩ := exists_splitOn_eq (Text.Utf8.encode text)
  have hmem : line ∈ (text.toList.splitOn '\n').map bytesOf := by
    rw [← splitOn_encode, heq]
    exact List.mem_append_left _ hline
  obtain ⟨cs, -, rfl⟩ := List.mem_map.1 hmem
  rw [isText, decode?_bytesOf, Option.isSome_some]

end Texts

/-! ## Calls -/

/-- The lines that a call reads, and what it gives, after `count` lines were counted : blank lines,
and the line that gives a row or a fault, unless there is none. -/
inductive Read (schema : Schema) (words : String → String) (count : Nat) :
    List (List UInt8) → Option (Except RowFault Row) → Prop
  | nothing {blanks : List (List UInt8)}
    (hb : ∀ line ∈ blanks, schema.readLine words line = .blank) :
    Read schema words count blanks none
  | row {blanks : List (List UInt8)} {line : List UInt8} {cells : Row}
    (hb : ∀ line ∈ blanks, schema.readLine words line = .blank)
    (hl : schema.readLine words line = .row cells) :
    Read schema words count (blanks ++ [line]) (some (.ok cells))
  | fault {blanks : List (List UInt8)} {line : List UInt8} {e : LineFault}
    (hb : ∀ line ∈ blanks, schema.readLine words line = .blank)
    (hl : schema.readLine words line = .fault e) :
    Read schema words count (blanks ++ [line]) (some (.error ⟨count + countTexts blanks + 1, e⟩))

/-- A blank line before the others is read with them. -/
theorem Read.cons {schema : Schema} {words : String → String} {count : Nat} {line : List UInt8}
    {lines : List (List UInt8)} {result : Option (Except RowFault Row)}
    (hl : schema.readLine words line = .blank) (h : Read schema words (count + 1) lines result) :
    Read schema words count (line :: lines) result := by
  have htext : isText line := (isText_iff_readLine schema words line).2 (by simp [hl])
  have hone {blanks : List (List UInt8)} : countTexts (line :: blanks) = countTexts blanks + 1 :=
    List.countP_cons_of_pos htext
  cases h with
  | nothing hb => exact .nothing (List.forall_mem_cons.2 ⟨hl, hb⟩)
  | row hb hrow => exact .row (List.forall_mem_cons.2 ⟨hl, hb⟩) hrow
  | @fault blanks last e hb hfault =>
    have hnumber : count + 1 + countTexts blanks + 1 = count + countTexts (line :: blanks) + 1 := by
      rw [hone]
      omega
    rw [hnumber, ← List.cons_append]
    exact .fault (List.forall_mem_cons.2 ⟨hl, hb⟩) hfault

namespace JsonLines

/-- How an input goes on after some of its lines were read. -/
structure After (input : JsonLines) (read : List (List UInt8)) (after : JsonLines) : Prop where
  schema_eq : after.schema = input.schema
  words_eq : after.words = input.words
  lines_eq : input.lines = read ++ after.lines
  count_eq : after.count = input.count + countTexts read

theorem After.refl (input : JsonLines) : input.After [] input :=
  ⟨rfl, rfl, rfl, rfl⟩

theorem After.trans {input middle after : JsonLines} {first second : List (List UInt8)}
    (h : input.After first middle) (h' : middle.After second after) :
    input.After (first ++ second) after where
  schema_eq := h'.schema_eq.trans h.schema_eq
  words_eq := h'.words_eq.trans h.words_eq
  lines_eq := by rw [h.lines_eq, h'.lines_eq, List.append_assoc]
  count_eq := by rw [h'.count_eq, h.count_eq, countTexts_append, Nat.add_assoc]

/-- A call reads lines up to the one that gives its result, and counts those of text. -/
theorem exists_read_nextFrom (schema : Schema) (words : String → String) :
    ∀ (lines : List (List UInt8)) (count : Nat),
    ∃ read, Read schema words count read (nextFrom schema words count lines).1 ∧
      After ⟨schema, words, lines, count⟩ read (nextFrom schema words count lines).2
  | [], _ => ⟨[], .nothing (by simp), .refl _⟩
  | line :: lines, count => by
    rw [nextFrom]
    have htext := isText_iff_readLine schema words line
    cases hl : schema.readLine words line with
    | blank =>
      obtain ⟨read, hread, hafter⟩ := exists_read_nextFrom schema words lines (count + 1)
      have hfirst : After ⟨schema, words, line :: lines, count⟩ [line]
          ⟨schema, words, lines, count + 1⟩ :=
        ⟨rfl, rfl, rfl, by simp [countTexts, htext, hl]⟩
      exact ⟨line :: read, hread.cons hl, hfirst.trans hafter⟩
    | row cells =>
      have hrow : Read schema words count ([] ++ [line]) (some (.ok cells)) := .row (by simp) hl
      exact ⟨[line], hrow, rfl, rfl, rfl, by simp [countTexts, htext, hl]⟩
    | fault e =>
      have hfault : Read schema words count ([] ++ [line]) (some (.error ⟨count + 1, e⟩)) :=
        .fault (by simp) hl
      -- The line is counted before it is parsed, but only after it is read as a text.
      cases e with
      | notText => exact ⟨[line], hfault, rfl, rfl, rfl, by simp [countTexts, htext, hl]⟩
      | notJson | notAnObject | unreadable =>
        exact ⟨[line], hfault, rfl, rfl, rfl, by simp [countTexts, htext, hl]⟩

/-- Each of a number of calls reads on where the one before it has stopped. -/
theorem exists_read_nextOnes : ∀ (calls : Nat) (input : JsonLines) {k : Nat}
    {result : Option (Except RowFault Row)} {after : JsonLines},
    (input.nextOnes calls)[k]? = some (result, after) →
    ∃ before middle read, input.After before middle ∧
      Read input.schema input.words middle.count read result ∧ middle.After read after
  | 0, _, _, _, _, h => by simp [nextOnes] at h
  | calls + 1, input, k, result, after, h => by
    obtain ⟨read, hread, hafter⟩ :=
      exists_read_nextFrom input.schema input.words input.lines input.count
    cases k with
    | zero =>
      have hnext : input.next = (result, after) := by simpa [nextOnes] using h
      rw [← next, hnext] at hread hafter
      exact ⟨[], input, read, .refl input, hread, hafter⟩
    | succ k =>
      have hrest : (input.next.2.nextOnes calls)[k]? = some (result, after) := by
        simpa [nextOnes] using h
      obtain ⟨before, middle, last, hbefore, hlast, hend⟩ :=
        exists_read_nextOnes calls input.next.2 hrest
      have hschema : input.next.2.schema = input.schema := hafter.schema_eq
      have hwords : input.next.2.words = input.words := hafter.words_eq
      rw [hschema, hwords] at hlast
      exact ⟨read ++ before, middle, last, After.trans hafter hbefore, hlast, hend⟩

end JsonLines

/-! ## The numbers of the lines -/

/-- The numbers that are told in a sequence of calls for the rows of bytes. -/
structure Numbered (schema : Schema) (words : String → String) (bytes : List UInt8) : Prop where
  /-- The lines are the physical ones, -/
  physical : PhysicalLines bytes (linesOf bytes)
  /-- and all of them are texts if the bytes are those of a text. -/
  encoded : ∀ text, bytes = Text.Utf8.encode text → ∀ line ∈ linesOf bytes, isText line
  /-- After each call the count is the number of the lines of text that are read so far, and that
  of all lines that are read just if these are texts. -/
  counted : ∀ {calls k : Nat} {result : Option (Except RowFault Row)} {after : JsonLines},
    ((JsonLines.ofBytes schema words bytes).nextOnes calls)[k]? = some (result, after) →
    ∃ read, linesOf bytes = read ++ after.lines ∧ after.count = countTexts read ∧
      (after.count = read.length ↔ ∀ line ∈ read, isText line)
  /-- A fault is that of the last line that is read. Its number is one more than that of the lines
  of text before this line, and the physical number of the line just if all of them are texts. -/
  told : ∀ {calls k : Nat} {e : RowFault} {after : JsonLines},
    ((JsonLines.ofBytes schema words bytes).nextOnes calls)[k]? = some (some (.error e), after) →
    ∃ before line, linesOf bytes = before ++ line :: after.lines ∧
      schema.readLine words line = .fault e.fault ∧
      e.message = "line " ++ Decimal.text (countTexts before + 1) ++ ": " ++ e.fault.message ∧
      (e.line = before.length + 1 ↔ ∀ line ∈ before, isText line)

/-- Lines of text are counted, and faults have the numbers of their lines as long as there are no
other lines. -/
theorem numbered_of_bytes (schema : Schema) (words : String → String) (bytes : List UInt8) :
    Numbered schema words bytes where
  physical := physicalLines_linesOf bytes
  encoded := by
    rintro text rfl
    exact isText_of_mem_linesOf text
  counted := by
    intro calls k result after h
    obtain ⟨before, middle, read, hbefore, -, hread⟩ := JsonLines.exists_read_nextOnes calls _ h
    obtain ⟨-, -, hlines, hcount⟩ := hbefore.trans hread
    have htexts : after.count = countTexts (before ++ read) := hcount.trans (Nat.zero_add _)
    refine ⟨before ++ read, hlines, htexts, ?_⟩
    rw [htexts, countTexts_eq_length_iff]
  told := by
    intro calls k e after h
    obtain ⟨before, middle, read, hbefore, hresult, hread⟩ :=
      JsonLines.exists_read_nextOnes calls _ h
    generalize hr : some (Except.error e) = result at hresult
    cases hresult with
    | nothing | row => cases hr
    | @fault blanks line fault hb hl =>
      cases hr
      have hcount : middle.count = countTexts before :=
        hbefore.count_eq.trans (Nat.zero_add _)
      have hnumber : middle.count + countTexts blanks + 1 =
          countTexts (before ++ blanks) + 1 := by
        rw [hcount, countTexts_append]
      have hlines : linesOf bytes = (before ++ (blanks ++ [line])) ++ after.lines :=
        (hbefore.trans hread).lines_eq
      refine ⟨before ++ blanks, line, by simpa using hlines, hl, ?_, ?_⟩
      · rw [RowFault.message, hnumber]
      · rw [hnumber, Nat.add_right_cancel_iff, countTexts_eq_length_iff]

/-- After a line that is not text the first fault, in the second line, is said to be in line 1, and
two lines are counted as one. -/
theorem numbers_astray :
    linesOf [0xFF, 10, 0x5B, 0x5D, 10] = [[0xFF], [0x5B, 0x5D]] ∧
      ((JsonLines.ofBytes ⟨[⟨"n", .long⟩]⟩ id [0xFF, 10, 0x5B, 0x5D, 10]).nextOnes 2).map
        (fun call => (call.1, call.2.lines, call.2.count)) =
        [(some (.error ⟨1, .notText⟩), [[0x5B, 0x5D]], 0),
          (some (.error ⟨1, .notAnObject⟩), [], 1)] := by
  constructor
  · decide
  · rfl

end BulkLoad
