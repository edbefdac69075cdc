import BulkLoad.Proofs.Import.Player
import BulkLoad.Proofs.MessagePack.Reading
import BulkLoad.Proofs.Program.Along

/-!
# The content of a part

A part is made, records are added to it, and it is closed (`fill`). As long as the file system does
what it is asked, this comes to an end, and what the file holds then can be told record by record
(`Holds`) : the records are read back from it as they were added, and no other records leave the
same content (`content_of_fill`). A part without records leaves no file.
-/

namespace BulkLoad.Part

open Program (Trace Along)
open Import (Files Serves)

/-- Makes a part of records. The results are the part before it is closed, and its file. -/
def fill (directory : Option String) (stem : String) (number : Nat) (records : List Packed) :
    Work (Builder × Option File) := do
  let part ← records.foldlM Builder.add (← create directory stem number)
  return (part, ← part.finish)

/-! ## Files that do as they are asked -/

/-- What a question and its answer do to the files. -/
def Serving (files : Files) (e : Program.Event Answer) (files' : Files) : Prop :=
  Serves files e.1 e.2 files'

/-- The file system does what it is asked. -/
def fine : Program.Event Answer → Bool
  | ⟨.create .., answer⟩ => answer.isOk
  | ⟨.append .., answer⟩ => answer.isOk
  | ⟨.close _, answer⟩ => answer.isOk
  | ⟨.remove _, _⟩ => true

/-- From files on that do what they are asked, a program comes to a result, which fits the files
then. -/
def Yields {α : Type} (files : Files) (p : Work α) (R : α → Files → Prop) : Prop :=
  ∀ events outcome last, Trace p events (some outcome) → Along Serving files events last →
    (∀ e ∈ events, fine e = true) → ∃ a, outcome = .done a ∧ R a last

namespace Yields

variable {α β : Type} {files : Files} {R : α → Files → Prop} {S : β → Files → Prop}

theorem pure {a : α} (h : R a files) : Yields files (Pure.pure a) R := by
  intro events outcome last ht hs _
  obtain ⟨rfl, ho⟩ := Trace.of_pure ht
  obtain rfl := hs.of_nil
  exact ⟨a, Option.some.inj ho, h⟩

theorem bind {p : Work α} {f : α → Work β} (h : Yields files p R)
    (hf : ∀ a last, R a last → Yields last (f a) S) : Yields files (p >>= f) S := by
  intro events outcome last ht hs hfine
  rcases Trace.of_bind ht with ⟨first, a, rest, rfl, h₁, h₂⟩ | ⟨stop, h₁, hstop⟩
  · obtain ⟨hfirst, hrest⟩ := List.forall_mem_append.1 hfine
    obtain ⟨middle, hs₁, hs₂⟩ := hs.split
    obtain ⟨b, ho, hr⟩ := h first _ middle h₁ hs₁ hfirst
    cases ho
    exact hf a middle hr rest outcome last h₂ hs₂ hrest
  · -- A program that comes to a result does not stop before it.
    cases hstop with
    | failed e =>
      obtain ⟨a, ho, -⟩ := h events _ last h₁ hs hfine
      cases ho
    | aborted reason =>
      obtain ⟨a, ho, -⟩ := h events _ last h₁ hs hfine
      cases ho

theorem ask {q : Question} {R : Answer q → Files → Prop}
    (h : ∀ answer last, Serves files q answer last → fine ⟨q, answer⟩ = true → R answer last) :
    Yields files (ask q) R := by
  intro events outcome last ht hs hfine
  rcases Trace.of_query ht with ⟨-, ho⟩ | ⟨answer, rfl, ho⟩
  · cases ho
  · have hone : Along Serving files ([] ++ [⟨q, answer⟩]) last := hs
    obtain ⟨first, hnone, hserves⟩ := hone.of_snoc
    obtain rfl := hnone.of_nil
    exact ⟨answer, Option.some.inj ho, h answer last hserves (hfine _ (by simp))⟩

/-- A question, and what a program makes of its answer. -/
theorem ask_bind {q : Question} {f : Answer q → Work β}
    (h : ∀ answer last, Serves files q answer last → fine ⟨q, answer⟩ = true →
      Yields last (f answer) S) : Yields files (Part.ask q >>= f) S :=
  bind (ask (R := fun answer last => Serves files q answer last ∧ fine ⟨q, answer⟩ = true)
    fun _ _ hs hfine => ⟨hs, hfine⟩) fun answer last hr => h answer last hr.1 hr.2

end Yields

/-! ## Record by record -/

/-- The file of an open part holds the records that were added. -/
structure Holds (records : List Packed) (part : Builder) (files : Files) : Prop where
  count : part.records = records.length
  content : files part.path = some (Packed.encodeAll records)

variable {directory : Option String} {stem : String} {number : Nat} {records more : List Packed}
  {part : Builder} {files : Files}

/-- A part that was just made holds nothing. -/
theorem yields_create : Yields files (create directory stem number) (Holds []) := by
  refine Yields.ask_bind fun answer last hs hfine => ?_
  cases hs with
  | created h => exact Yields.pure ⟨rfl, Function.update_self ..⟩
  | notCreated => cases hfine

theorem yields_add {record : Packed} (h : Holds records part files) :
    Yields files (part.add record) (Holds (records ++ [record])) := by
  refine Yields.ask_bind fun answer last hs hfine => ?_
  cases hs with
  | @appended _ content _ _ hc =>
    obtain rfl : content = Packed.encodeAll records := Option.some.inj (hc.symm.trans h.content)
    refine Yields.pure ⟨?_, ?_⟩
    · rw [h.count, List.length_append, List.length_singleton]
    · rw [Function.update_self, Packed.encodeAll, Packed.encodeAll, List.flatMap_append,
        List.flatMap_singleton]
  | notAppended => cases hfine

theorem yields_addAll (h : Holds records part files) :
    Yields files (more.foldlM Builder.add part) (Holds (records ++ more)) := by
  induction more generalizing records part files with
  | nil => exact Yields.pure (by rwa [List.append_nil])
  | cons record more ih =>
    rw [List.foldlM_cons]
    refine Yields.bind (yields_add h) fun part files hpart => ?_
    rw [List.append_cons]
    exact ih hpart

/-- What becomes of a part that is closed : it has a file just when it has records, and the file
holds them. -/
structure Closed (records : List Packed) (file? : Option File) (files : Files) : Prop where
  none_iff : file? = none ↔ records = []
  held : ∀ file ∈ file?, file.records = records.length ∧
    files file.path = some (Packed.encodeAll records)

theorem yields_finish (h : Holds records part files) :
    Yields files part.finish (Closed records) := by
  refine Yields.ask_bind fun answer last hs hfine => ?_
  cases hs with
  | closed =>
    dsimp only
    split
    next hz =>
      have hnil : records = [] := List.length_eq_zero_iff.1 (h.count.symm.trans hz)
      exact Yields.ask_bind fun _ _ _ _ => Yields.pure ⟨by simp [hnil], by simp⟩
    next hz =>
      have hne : records ≠ [] := by
        rintro rfl
        exact hz h.count
      refine Yields.pure ⟨by simp [hne], fun file hf => ?_⟩
      cases hf
      exact ⟨h.count, h.content⟩
  | notClosed => cases hfine

/-- A part that is filled holds the records, and so does its file. -/
theorem yields_fill : Yields files (fill directory stem number records)
    fun result last => result.1.records = records.length ∧ Closed records result.2 last := by
  refine Yields.bind yields_create fun part files hpart => ?_
  refine Yields.bind (yields_addAll hpart) fun part files hpart => ?_
  refine Yields.bind (yields_finish hpart) fun file? files hclosed => ?_
  exact Yields.pure ⟨hpart.count, hclosed⟩

/-- Filling a part with records that fit comes to a result when nothing fails. It has as many
records as were added, and a file just when these are any; from the content of the file the records
are read back with nothing left over, and no other records have that content. -/
theorem content_of_fill {events : List (Program.Event Answer)}
    {outcome : Outcome Fault (Builder × Option File)} {last : Files}
    (hfits : ∀ record ∈ records, record.Fits)
    (ht : Trace (fill directory stem number records) events (some outcome))
    (hs : Along Serving files events last) (hfine : ∀ e ∈ events, fine e = true) :
    ∃ part file?, outcome = .done (part, file?) ∧ part.records = records.length ∧
      (file? = none ↔ records = []) ∧
      (∀ file ∈ file?, file.records = records.length ∧
        last file.path = some (Packed.encodeAll records)) ∧
      Packed.decodeAll? (Packed.encodeAll records) = some records ∧
      ∀ others : List Packed, (∀ record ∈ others, record.Fits) →
        Packed.encodeAll others = Packed.encodeAll records → others = records := by
  obtain ⟨⟨part, file?⟩, ho, hcount, hclosed⟩ := yields_fill events outcome last ht hs hfine
  exact ⟨part, file?, ho, hcount, hclosed.none_iff, hclosed.held,
    Packed.decodeAll?_encodeAll hfits,
    fun others hothers he => Packed.eq_of_encodeAll_eq hothers hfits he⟩

/-! ## A part that is filled -/

theorem along_transcript {α : Type} : ∀ (p : Work α) (files : Files), ∃ last,
    Along Serving files (p.transcript (fun q files => Files.serve files q) files).1 last
  | .done _, files | .failed _, files | .aborted _, files => ⟨files, .nil⟩
  | .ask q next, files => by
    obtain ⟨last, h⟩ := along_transcript (next (files.serve q).1) (files.serve q).2
    exact ⟨last, .cons (files.serves q) h⟩

/-- Records with the least and the greatest integer, nested values, and none. -/
def sample : List Packed :=
  [.map [(.text "time", .int ⟨-0x8000000000000000, by decide, by decide⟩),
      (.text "größe", .double ⟨0x7FF8000000000001⟩),
      (.text "tags", .array [.nil, .bool true,
        .map [(.text "", .int ⟨0xFFFFFFFFFFFFFFFF, by decide, by decide⟩)]])],
    .map []]

/-- The sample is put into a part, where nothing fails. -/
def filled : List (Program.Event Answer) × Outcome Fault (Builder × Option File) :=
  (fill none "p" 3 sample).transcript (fun q files => Files.serve files q) fun _ => none

theorem fits_sample : ∀ record ∈ sample, record.Fits := by
  have fits_text {s : String} (h : (Text.Utf8.encode s).length < 0x100000000) :
      (Packed.text s).Fits := .text h
  have hinner : (Packed.map [(.text "", .int ⟨0xFFFFFFFFFFFFFFFF, by decide, by decide⟩)]).Fits :=
    .map (by decide) (by simpa using fits_text (by decide)) (by simpa using .int _)
  have htags : (Packed.array [.nil, .bool true,
      .map [(.text "", .int ⟨0xFFFFFFFFFFFFFFFF, by decide, by decide⟩)]]).Fits :=
    .array (by decide) (by simpa using ⟨.nil, .bool true, hinner⟩)
  have hkeys : (Packed.text "time").Fits ∧ (Packed.text "größe").Fits ∧ (Packed.text "tags").Fits :=
    ⟨fits_text (by decide), fits_text (by decide), fits_text (by decide)⟩
  simp only [sample, List.forall_mem_cons, List.not_mem_nil, false_imp_iff, implies_true, and_true]
  exact ⟨.map (by decide) (by simpa using hkeys) (by simpa using ⟨.int _, .double _, htags⟩),
    .map (by decide) (by simp) (by simp)⟩

/-- The part and its file have both records, which are read back from the content. -/
theorem content_filled :
    (∀ record ∈ sample, record.Fits) ∧ (∀ e ∈ filled.1, fine e = true) ∧
      ∃ (last : Files) (part : Builder) (file? : Option File),
        filled.2 = .done (part, file?) ∧ part.records = sample.length ∧
        (file? = none ↔ sample = []) ∧
        (∀ file ∈ file?, file.records = sample.length ∧
          last file.path = some (Packed.encodeAll sample)) ∧
        Packed.decodeAll? (Packed.encodeAll sample) = some sample ∧
        ∀ others : List Packed, (∀ record ∈ others, record.Fits) →
          Packed.encodeAll others = Packed.encodeAll sample → others = sample := by
  have hfine : ∀ e ∈ filled.1, fine e = true := List.all_eq_true.1 (by decide +kernel)
  obtain ⟨last, hs⟩ := along_transcript (fill none "p" 3 sample) fun _ => none
  exact ⟨fits_sample, hfine, last,
    content_of_fill fits_sample (Program.trace_transcript _ _ _) hs hfine⟩

end BulkLoad.Part
